import Eroil.Proofs.Socket.Connections
import Eroil.Proofs.Socket.Framing
import Eroil.Proofs.Socket.Workers

/-! # One peer of the node

`Peer` follows the two threads for one remote peer, `Connections` for all of them at once. Seen from
one peer, every run of the node is a run of `Peer`: what the threads do for another peer changes
nothing here, or it is a connection that dies. So a connected socket of any peer of the node has its
reader, as long as none of the three defects is met for that peer.
-/

namespace Eroil

open Lib

/-! ## What a peer sees -/

/-- The server thread; while it handles another peer, it is idle here. -/
def TcpServerPc.seenBy (id : NodeId) (name : SockRef → SockRef) : TcpServerPc → ServerPc
  | .accepted client other => if other = id then .accepted (name client) else .idle
  | .starting other => if other = id then .starting else .idle
  | .creating other => if other = id then .creating else .idle
  | _ => .idle

def MonitorPc.rename (name : SockRef → SockRef) : MonitorPc → MonitorPc
  | .pinging client => .pinging (name client)
  | .dead client => .dead (name client)
  | .upserting client => .upserting (name client)
  | pc => pc

/-- The connecting thread; while it handles another peer, it is idle here. -/
def Connector.seenBy (id : NodeId) (name : SockRef → SockRef) (connector : Connector) : MonitorPc :=
  if connector.peer = id then connector.pc.rename name else .idle

def RecvWorker.rename (name : SockRef → SockRef) (worker : RecvWorker) : RecvWorker :=
  { worker with sock := worker.sock.map name }

namespace TcpClient

private theorem sendAllLoop_kept {left : List UInt8} {results : List OsSend} {outcome : SendOutcome}
    (returns : sendAllLoop left results = some outcome)
    (kept : mapSockFailures outcome.code = true) : outcome.connected = true := by
  induction results generalizing left outcome with
  | nil =>
    simp only [sendAllLoop] at returns
    split at returns <;> cases returns
    rfl
  | cons result results ih =>
    simp only [sendAllLoop] at returns
    split at returns
    · cases returns
    · cases result with
      | sent count =>
        dsimp only at returns
        split at returns
        · obtain ⟨rest, returned, rfl⟩ := Option.map_eq_some_iff.mp returns
          have up : rest.connected = true := ih returned kept
          exact up
        · split at returns <;> cases returns
          cases kept
      | error errno =>
        dsimp only at returns
        split at returns
        · exact ih returns kept
        · split at returns <;> cases returns
          cases fatal : isFatalSendErr errno with
          | false => rfl
          | true => cases (mapSockFailures_of_fatal fatal).symm.trans kept

/-- After an error that keeps the connection, it is up. -/
theorem sendAll_kept {connected : Bool} {data : List UInt8} {results : List OsSend}
    {outcome : SendOutcome} (returns : sendAll connected data results = some outcome)
    (kept : mapSockFailures outcome.code = true) : outcome.connected = true := by
  cases connected with
  | false =>
    simp only [sendAll, refuses, Bool.not_false, if_true] at returns
    split at returns <;> cases returns
    cases kept
  | true =>
    unfold sendAll at returns
    split at returns
    · split at returns <;> cases returns
      rfl
    · exact sendAllLoop_kept returns kept

end TcpClient

namespace Connections

/-- One peer of the node; a socket's number is its place among the sockets of this peer. -/
def peer (conns : Connections) (id : NodeId) (own : List SockRef) : Peer where
  initiates := id < conns.myId
  nextSock := own.length
  connected ref := (own[ref]?.map conns.isConnected).getD false
  registered := (conns.registry id).map (own.idxOf ·)
  worker := (conns.recvrs id).map (RecvWorker.rename (own.idxOf ·))
  server := conns.server.seenBy id (own.idxOf ·)
  monitor := conns.connector.seenBy id (own.idxOf ·)

/-- Some table or thread has this socket for this peer. -/
def Refers (conns : Connections) (id : NodeId) (sock : SockRef) : Prop :=
  conns.registry id = some sock ∨
    (∃ worker, conns.recvrs id = some worker ∧ worker.sock = some sock) ∨
    conns.server = .accepted sock id ∨
    (conns.connector.peer = id ∧ Handles conns.connector.pc sock)

/-- The sockets that have been this peer's so far, each in one place. -/
structure Owns (conns : Connections) (id : NodeId) (own : List SockRef) : Prop where
  nodup : own.Nodup
  created : ∀ sock ∈ own, sock < conns.sockets.length
  greeted : ∀ sock ∈ own, conns.server ≠ .greeting sock
  refers : ∀ sock, conns.Refers id sock → sock ∈ own

/-- As `Peer.Served`, for one peer of the node. -/
def Served (conns : Connections) (id : NodeId) : Prop :=
  ∀ sock, conns.registry id = some sock → conns.isConnected sock = true →
    conns.recvrs id = some ⟨some sock, true⟩

/-- As `Peer.Idle`. -/
def Idle (conns : Connections) (id : NodeId) : Prop :=
  (∀ client, conns.server ≠ .accepted client id) ∧ conns.server ≠ .starting id ∧
    conns.server ≠ .creating id ∧ (conns.connector.peer = id → conns.connector.pc = .idle)

/-- As `Peer.NoLeftover`. -/
def NoLeftover (conns : Connections) (id : NodeId) : Prop :=
  ∀ sock worker, conns.registry id = some sock → conns.isConnected sock = true →
    conns.recvrs id = some worker → worker = ⟨some sock, true⟩

/-- As `Peer.Unneeded`. -/
def Unneeded (conns : Connections) (id : NodeId) : Prop :=
  ∀ sock, conns.registry id = some sock → conns.isConnected sock = true →
    conns.recvrs id ≠ some ⟨some sock, true⟩

/-- As `Peer.Orderly`: the step meets none of the three defects for this peer. -/
def Orderly (id : NodeId) (conns : Connections) : Action → Prop
  | .server => conns.server = .starting id ∨ conns.server = .creating id → conns.NoLeftover id
  | .connector =>
      conns.connector.peer = id →
        (conns.connector.pc = .starting ∨ conns.connector.pc = .creating → conns.NoLeftover id) ∧
          (conns.connector.pc = .stopping → conns.Unneeded id)
  | .workerExits other .failed => other = id → conns.Unneeded id
  | _ => True

variable {conns : Connections} {id : NodeId} {own : List SockRef}

/-! ## Single changes -/

/-- What a peer sees of the sockets is whether its own are connected. -/
theorem peer_sockets {sockets : List TcpSocket}
    (same : ∀ sock ∈ own,
      isConnected { conns with sockets := sockets } sock = conns.isConnected sock) :
    peer { conns with sockets := sockets } id own = conns.peer id own := by
  have connected (ref : SockRef) :
      (own[ref]?.map (isConnected { conns with sockets := sockets })).getD false =
        (own[ref]?.map conns.isConnected).getD false := by
    cases found : own[ref]? with
    | none => rfl
    | some sock => exact same sock (List.mem_of_getElem? found)
  simp only [peer, funext connected]

theorem peer_disconnect_other {sock : SockRef} (other : sock ∉ own) :
    (conns.disconnect sock).peer id own = conns.peer id own := by
  refine peer_sockets fun mine member => ?_
  refine (isConnected_modifySocket conns sock mine false).trans (if_neg ?_)
  rintro rfl
  exact other member

/-- A new socket changes nothing as long as nobody has it for this peer. -/
theorem isConnected_append (socket : TcpSocket) {sock : SockRef}
    (inside : sock < conns.sockets.length) :
    isConnected { conns with sockets := conns.sockets ++ [socket] } sock =
      conns.isConnected sock := by
  simp only [isConnected, List.getElem?_append_left inside]

theorem isConnected_setId (client sock : SockRef) (other : NodeId) :
    (conns.modifySocket client fun socket => { socket with destId := other }).isConnected sock =
      conns.isConnected sock := by
  unfold isConnected
  rw [lookup_modifySocket, Option.map_map]
  congr 2
  funext socket
  by_cases same : client = sock <;> simp [same]

theorem connected_idxOf {sock : SockRef} (member : sock ∈ own) :
    (conns.peer id own).connected (own.idxOf sock) = conns.isConnected sock := by
  simp [peer, List.getElem?_idxOf member]

theorem peer_server (conns : Connections) (server : TcpServerPc) :
    peer { conns with server := server } id own =
      { conns.peer id own with server := server.seenBy id (own.idxOf ·) } := rfl

theorem peer_server_same (conns : Connections) {server : TcpServerPc}
    (same : server.seenBy id (own.idxOf ·) = conns.server.seenBy id (own.idxOf ·)) :
    peer { conns with server := server } id own = conns.peer id own := by
  rw [peer_server, same]
  rfl

theorem peer_connector (conns : Connections) (connector : Connector) :
    peer { conns with connector := connector } id own =
      { conns.peer id own with monitor := connector.seenBy id (own.idxOf ·) } := rfl

theorem peer_connector_same (conns : Connections) {connector : Connector}
    (same : connector.seenBy id (own.idxOf ·) = conns.connector.seenBy id (own.idxOf ·)) :
    peer { conns with connector := connector } id own = conns.peer id own := by
  rw [peer_connector, same]
  rfl

theorem peer_register (sock : SockRef) :
    peer { conns with registry := Function.update conns.registry id (some sock) } id own =
      { conns.peer id own with registered := some (own.idxOf sock) } := by
  simp only [peer, Function.update_self, Option.map_some]
  rfl

theorem peer_register_other {other : NodeId} (apart : id ≠ other) (sock : SockRef) :
    peer { conns with registry := Function.update conns.registry other (some sock) } id own =
      conns.peer id own := by
  simp only [peer, Function.update_of_ne apart]
  rfl

theorem peer_setWorker (conns : Connections) (entry : Option RecvWorker) :
    peer { conns with recvrs := Function.update conns.recvrs id entry } id own =
      { conns.peer id own with worker := entry.map (RecvWorker.rename (own.idxOf ·)) } := by
  simp only [peer, Function.update_self]
  rfl

theorem peer_setWorker_other (conns : Connections) {other : NodeId} (apart : id ≠ other)
    (entry : Option RecvWorker) :
    peer { conns with recvrs := Function.update conns.recvrs other entry } id own =
      conns.peer id own := by
  simp only [peer, Function.update_of_ne apart]
  rfl

namespace Owns

variable (owns : conns.Owns id own)

include owns

theorem peer_disconnect {sock : SockRef} (member : sock ∈ own) :
    (conns.disconnect sock).peer id own = (conns.peer id own).disconnect (own.idxOf sock) := by
  have connected (ref : SockRef) : (own[ref]?.map (conns.disconnect sock).isConnected).getD false =
      Function.update (conns.peer id own).connected (own.idxOf sock) false ref := by
    rw [Function.update_apply]
    cases found : own[ref]? with
    | none => simp [peer, found]
    | some mine =>
      obtain ⟨inside, rfl⟩ := List.getElem?_eq_some_iff.mp found
      have place : ref = own.idxOf sock ↔ sock = own[ref] := by
        rw [← List.idxOf_inj member, owns.nodup.idxOf_getElem ref inside, eq_comm]
      simp only [place, peer, found, Option.map_some, Option.getD_some, disconnect,
        isConnected_modifySocket, Bool.and_false]
  simp only [peer, Peer.disconnect, funext connected]
  rfl

theorem sockets {sockets : List TcpSocket} (more : conns.sockets.length ≤ sockets.length) :
    Owns { conns with sockets := sockets } id own :=
  ⟨owns.nodup, fun sock member => Nat.lt_of_lt_of_le (owns.created sock member) more, owns.greeted,
    owns.refers⟩

theorem disconnect (sock : SockRef) : (conns.disconnect sock).Owns id own :=
  owns.sockets (List.length_modify ..).ge

/-- The server thread moves on. -/
theorem server {server : TcpServerPc} (greeted : ∀ sock ∈ own, server ≠ .greeting sock)
    (accepted : ∀ sock, server = .accepted sock id → sock ∈ own) :
    Owns { conns with server := server } id own := by
  refine ⟨owns.nodup, owns.created, greeted, ?_⟩
  rintro sock (registered | read | here | handled)
  · exact owns.refers sock (.inl registered)
  · exact owns.refers sock (.inr (.inl read))
  · exact accepted sock here
  · exact owns.refers sock (.inr (.inr (.inr handled)))

/-- The connecting thread moves on. -/
theorem connector {connector : Connector}
    (handles : connector.peer = id → ∀ sock, Handles connector.pc sock → sock ∈ own) :
    Owns { conns with connector := connector } id own := by
  refine ⟨owns.nodup, owns.created, owns.greeted, ?_⟩
  rintro sock (registered | read | here | ⟨mine, handled⟩)
  · exact owns.refers sock (.inl registered)
  · exact owns.refers sock (.inr (.inl read))
  · exact owns.refers sock (.inr (.inr (.inl here)))
  · exact handles mine sock handled

theorem register {other : NodeId} {sock : SockRef} (mine : other = id → sock ∈ own) :
    Owns { conns with registry := Function.update conns.registry other (some sock) } id own := by
  refine ⟨owns.nodup, owns.created, owns.greeted, ?_⟩
  rintro found (registered | rest)
  · simp only [Function.update_apply] at registered
    split at registered
    · next same =>
      cases registered
      exact mine same.symm
    · exact owns.refers found (.inl registered)
  · exact owns.refers found (.inr rest)

/-- The entry of a worker changes. -/
theorem setWorker {other : NodeId} {entry : Option RecvWorker}
    (mine : other = id → ∀ worker, entry = some worker → ∀ sock, worker.sock = some sock →
      sock ∈ own) :
    Owns { conns with recvrs := Function.update conns.recvrs other entry } id own := by
  refine ⟨owns.nodup, owns.created, owns.greeted, ?_⟩
  rintro sock (registered | ⟨worker, found, reads⟩ | rest)
  · exact owns.refers sock (.inl registered)
  · simp only [Function.update_apply] at found
    split at found
    · next same => exact mine same.symm worker found sock reads
    · exact owns.refers sock (.inr (.inl ⟨worker, found, reads⟩))
  · exact owns.refers sock (.inr (.inr rest))

theorem upsertSocket {other : NodeId} {sock : SockRef} (mine : other = id → sock ∈ own) :
    (conns.upsertSocket other sock).Owns id own := by
  unfold Connections.upsertSocket
  split
  · exact owns.register mine
  · next old _ => exact (owns.disconnect old).register mine

theorem createWorker (other : NodeId) : (conns.createWorker other).Owns id own := by
  unfold Connections.createWorker
  split
  · exact owns
  · apply owns.setWorker
    rintro rfl _ ⟨⟩ sock registered
    exact owns.refers sock (.inl registered)

theorem stopWorker (other : NodeId) : (conns.stopWorker other).Owns id own := by
  apply owns.setWorker
  rintro _ _ ⟨⟩

/-- One more socket is this peer's from now on. -/
theorem append {client : SockRef} (fresh : client ∉ own) (created : client < conns.sockets.length)
    (greeted : conns.server ≠ .greeting client) : conns.Owns id (own ++ [client]) where
  nodup := List.nodup_append_comm.mp (List.nodup_cons.mpr ⟨fresh, owns.nodup⟩)
  created sock member := by
    rcases List.mem_append.mp member with before | now
    · exact owns.created sock before
    · rwa [List.mem_singleton.mp now]
  greeted sock member := by
    rcases List.mem_append.mp member with before | now
    · exact owns.greeted sock before
    · rwa [List.mem_singleton.mp now]
  refers sock refers := List.mem_append_left _ (owns.refers sock refers)

/-- The numbers given so far stay, and the new socket gets the next one. -/
theorem peer_append {client : SockRef} (up : conns.isConnected client = true) :
    conns.peer id (own ++ [client]) = (conns.peer id own).newSocket.2 := by
  have name {sock : SockRef} (refers : conns.Refers id sock) :
      (own ++ [client]).idxOf sock = own.idxOf sock :=
    List.idxOf_append_of_mem (owns.refers sock refers)
  have connected (ref : SockRef) : ((own ++ [client])[ref]?.map conns.isConnected).getD false =
      Function.update (conns.peer id own).connected own.length true ref := by
    rw [Function.update_apply, List.getElem?_append]
    rcases Nat.lt_trichotomy ref own.length with before | rfl | after
    · rw [if_pos before, if_neg (Nat.ne_of_lt before)]
      rfl
    · simp [up]
    · rw [if_neg (Nat.not_lt.mpr after.le), if_neg (Nat.ne_of_gt after)]
      have beyond : [client][ref - own.length]? = none :=
        List.getElem?_eq_none (Nat.sub_pos_of_lt after)
      simp [peer, List.getElem?_eq_none after.le, beyond]
  have registered : (conns.registry id).map ((own ++ [client]).idxOf ·) =
      (conns.registry id).map (own.idxOf ·) :=
    Option.map_congr fun sock found => name (.inl found)
  have worker : (conns.recvrs id).map (RecvWorker.rename ((own ++ [client]).idxOf ·)) =
      (conns.recvrs id).map (RecvWorker.rename (own.idxOf ·)) := by
    refine Option.map_congr fun worker found => ?_
    unfold RecvWorker.rename
    congr 1
    exact Option.map_congr fun sock reads => name (.inr (.inl ⟨worker, found, reads⟩))
  have server : conns.server.seenBy id ((own ++ [client]).idxOf ·) =
      conns.server.seenBy id (own.idxOf ·) := by
    cases here : conns.server with
    | accepted sock other =>
      simp only [TcpServerPc.seenBy]
      split
      · next same => rw [name (.inr (.inr (.inl (same ▸ here))))]
      · rfl
    | _ => rfl
  have monitor : conns.connector.seenBy id ((own ++ [client]).idxOf ·) =
      conns.connector.seenBy id (own.idxOf ·) := by
    unfold Connector.seenBy
    split
    · next mine =>
      have handled {sock : SockRef} (handles : Handles conns.connector.pc sock) :=
        name (.inr (.inr (.inr ⟨mine, handles⟩)))
      cases here : conns.connector.pc with
      | pinging sock => simp only [MonitorPc.rename, handled (.inl here)]
      | upserting sock => simp only [MonitorPc.rename, handled (.inr (.inl here))]
      | dead sock => simp only [MonitorPc.rename, handled (.inr (.inr here))]
      | _ => rfl
    · rfl
  simp only [peer, registered, worker, server, monitor, funext connected, List.length_append,
    List.length_singleton, Peer.newSocket]

theorem peer_upsertSocket (sock : SockRef) :
    (conns.upsertSocket id sock).peer id own =
      (conns.peer id own).upsertSocket (own.idxOf sock) := by
  cases old : conns.registry id with
  | none =>
    have vacant : (conns.peer id own).registered = none := congrArg (Option.map (own.idxOf ·)) old
    simp only [Connections.upsertSocket, Peer.upsertSocket, vacant, old, peer_register]
  | some earlier =>
    have taken : (conns.peer id own).registered = some (own.idxOf earlier) :=
      congrArg (Option.map (own.idxOf ·)) old
    have dead := owns.peer_disconnect (owns.refers earlier (.inl old))
    simp only [Connections.upsertSocket, Peer.upsertSocket, taken, old, ← dead]
    exact peer_register sock

omit owns in
theorem peer_createWorker :
    (conns.createWorker id).peer id own = (conns.peer id own).createWorker := by
  cases entry : conns.recvrs id with
  | none =>
    have vacant : (conns.peer id own).worker = none :=
      congrArg (Option.map (RecvWorker.rename (own.idxOf ·))) entry
    simp only [Connections.createWorker, Peer.createWorker, vacant, entry, peer_setWorker]
    rfl
  | some worker =>
    have taken : (conns.peer id own).worker = some (worker.rename (own.idxOf ·)) :=
      congrArg (Option.map (RecvWorker.rename (own.idxOf ·))) entry
    simp only [Connections.createWorker, Peer.createWorker, taken, entry]

end Owns

private theorem peer_stopWorker :
    (conns.stopWorker id).peer id own = (conns.peer id own).stopWorker := peer_setWorker conns none

theorem peer_createWorker_other {other : NodeId} (apart : id ≠ other) :
    (conns.createWorker other).peer id own = conns.peer id own := by
  unfold Connections.createWorker
  split
  · rfl
  · exact peer_setWorker_other conns apart _

/-- Nobody is greeted over a connection that is down. -/
private theorem connected_of_greet {connected : Bool} {results rest : List OsRecv} {id : NodeId}
    (accepted : greet connected results = .accepted id rest) : connected = true := by
  cases connected with
  | true => rfl
  | false => simp [greet, TcpClient.recvAll] at accepted

theorem seenBy_idle {connector : Connector} (idle : connector.pc = .idle) (name : SockRef → SockRef) :
    connector.seenBy id name = .idle := by
  unfold Connector.seenBy
  rw [idle]
  split <;> rfl

/-- The connecting thread has come to another peer. -/
theorem seenBy_other {connector : Connector} (other : connector.peer ≠ id)
    (name : SockRef → SockRef) : connector.seenBy id name = .idle := if_neg other

/-- The monitor is neither about to start a worker nor to stop one. -/
theorem orderly_monitor {peer : Peer} {pc : MonitorPc} (here : peer.monitor = pc)
    (quiet : pc ≠ .starting ∧ pc ≠ .creating ∧ pc ≠ .stopping) (outcome : Bool) :
    peer.Orderly (.monitor outcome) := by
  obtain ⟨notStarting, notCreating, notStopping⟩ := here ▸ quiet
  exact ⟨fun starts => absurd starts (not_or.mpr ⟨notStarting, notCreating⟩),
    fun stops => absurd stops notStopping⟩

/-! ## Steps -/

/-- Seen from one peer, the node has taken some steps of `Peer`; all of them are orderly if that is
asked for. -/
def Follows (strict : Prop) (conns : Connections) (id : NodeId) (own : List SockRef)
    (after : Connections) : Prop :=
  ∃ later, after.Owns id later ∧
    Reaches Peer.step (fun peer action => strict → peer.Orderly action) (conns.peer id own)
      (after.peer id later)

variable {strict : Prop} {after : Connections}

/-- Nothing that the peer could see has happened. -/
theorem Follows.unseen (owns : after.Owns id own) (same : after.peer id own = conns.peer id own) :
    Follows strict conns id own after :=
  ⟨own, owns, same ▸ .refl⟩

theorem Follows.step {later : List SockRef} (owns : after.Owns id later) (action : Peer.Action)
    (orderly : strict → (conns.peer id own).Orderly action)
    (same : after.peer id later = (conns.peer id own).step action) :
    Follows strict conns id own after :=
  ⟨later, owns, same ▸ .single action orderly⟩

/-- One more step after those that have brought the peer here. -/
private theorem Follows.tail {later : List SockRef} {middle : Peer}
    (reached : Reaches Peer.step (fun peer action => strict → peer.Orderly action)
      (conns.peer id own) middle)
    (owns : after.Owns id later) (action : Peer.Action) (orderly : strict → middle.Orderly action)
    (same : after.peer id later = middle.step action) : Follows strict conns id own after :=
  ⟨later, owns, same ▸ .tail reached orderly⟩

/-- A socket is disconnected, perhaps one of this peer. -/
theorem Owns.dies (owns : conns.Owns id own) (sock : SockRef) :
    Reaches Peer.step (fun peer action => strict → peer.Orderly action) (conns.peer id own)
      ((conns.disconnect sock).peer id own) := by
  by_cases member : sock ∈ own
  · rw [owns.peer_disconnect member]
    exact .single (Peer.Action.connectionDies (own.idxOf sock)) fun _ => trivial
  · rw [peer_disconnect_other member]
    exact .refl

theorem Follows.dies {sock : SockRef} (before : conns.Owns id own) (owns : after.Owns id own)
    (same : after.peer id own = (conns.disconnect sock).peer id own) :
    Follows strict conns id own after :=
  ⟨own, owns, same ▸ before.dies sock⟩

/-- Without a leftover for the peer, it sees none. -/
theorem NoLeftover.peer (owns : conns.Owns id own) (clean : conns.NoLeftover id) :
    (conns.peer id own).NoLeftover := by
  intro ref worker found alive entry
  obtain ⟨sock, registered, rfl⟩ := Option.map_eq_some_iff.mp found
  obtain ⟨reader, present, rfl⟩ := Option.map_eq_some_iff.mp entry
  rw [connected_idxOf (owns.refers sock (.inl registered))] at alive
  rw [clean sock reader registered alive present]
  rfl

/-- The worker that the peer sees on a socket is on that socket. -/
theorem Owns.reads_of_peer (owns : conns.Owns id own) {sock : SockRef} {running : Bool}
    (entry : (conns.peer id own).worker = some ⟨some (own.idxOf sock), running⟩) :
    conns.recvrs id = some ⟨some sock, running⟩ := by
  obtain ⟨⟨reads, _⟩, present, same⟩ := Option.map_eq_some_iff.mp entry
  simp only [RecvWorker.rename, RecvWorker.mk.injEq, Option.map_eq_some_iff] at same
  obtain ⟨⟨other, rfl, place⟩, rfl⟩ := same
  rw [present, (List.idxOf_inj (owns.refers other (.inr (.inl ⟨_, present, rfl⟩)))).mp place]

theorem Unneeded.peer (owns : conns.Owns id own) (unneeded : conns.Unneeded id) :
    (conns.peer id own).Unneeded := by
  intro ref found alive entry
  obtain ⟨sock, registered, rfl⟩ := Option.map_eq_some_iff.mp found
  rw [connected_idxOf (owns.refers sock (.inl registered))] at alive
  exact unneeded sock registered alive (owns.reads_of_peer entry)

namespace Owns

variable (owns : conns.Owns id own)

include owns

theorem reaches_upsertSocket {other : NodeId} (apart : id ≠ other) (sock : SockRef) :
    Reaches Peer.step (fun peer action => strict → peer.Orderly action) (conns.peer id own)
      ((conns.upsertSocket other sock).peer id own) := by
  unfold Connections.upsertSocket
  split
  · rw [peer_register_other apart]
    exact .refl
  · next old _ =>
    rw [peer_register_other apart]
    exact owns.dies old

private theorem serverStep (orderly : strict → Orderly id conns .server) :
    Follows strict conns id own conns.serverStep := by
  cases here : conns.server with
  | closed | listening | greeting =>
    simp only [Connections.serverStep, here]
    exact .unseen owns rfl
  | accepted client other =>
    obtain ⟨_, server, _⟩ := upsertSocket_fields conns other client
    simp only [Connections.serverStep, here]
    by_cases mine : other = id
    · subst mine
      have pc : (conns.peer other own).server = .accepted (own.idxOf client) := by
        simp [peer, here, TcpServerPc.seenBy]
      have member := owns.refers client (.inr (.inr (.inl here)))
      refine .step ((owns.upsertSocket fun _ => member).server (by rintro _ _ ⟨⟩) (by rintro _ ⟨⟩))
        .server ?_ ?_
      · rintro _ (starting | creating)
        · cases pc.symm.trans starting
        · cases pc.symm.trans creating
      · simp only [Peer.step, Peer.serverStep, pc, ← owns.peer_upsertSocket, peer_server,
          TcpServerPc.seenBy, if_true]
    · refine ⟨own, (owns.upsertSocket fun same => absurd same mine).server (by rintro _ _ ⟨⟩)
        (by rintro _ ⟨⟩), ?_⟩
      rw [peer_server_same (conns.upsertSocket other client)
        (by simp [server, here, TcpServerPc.seenBy, mine])]
      exact owns.reaches_upsertSocket (Ne.symm mine) client
  | starting other =>
    simp only [Connections.serverStep, here]
    have moved : Owns { conns with
        server := if (conns.recvrs other).isSome then .listening else .creating other } id own := by
      refine owns.server ?_ ?_
      · intro sock _ greeting
        split at greeting <;> cases greeting
      · intro sock accepted
        split at accepted <;> cases accepted
    by_cases mine : other = id
    · subst mine
      have pc : (conns.peer other own).server = .starting := by
        simp [peer, here, TcpServerPc.seenBy]
      have worker : (conns.peer other own).worker.isSome = (conns.recvrs other).isSome :=
        Option.isSome_map
      refine .step moved .server (fun asked _ => (orderly asked (.inl here)).peer owns) ?_
      simp only [Peer.step, Peer.serverStep, pc, worker, peer_server]
      split <;> simp only [TcpServerPc.seenBy, if_true]
    · refine .unseen moved (peer_server_same conns ?_)
      split <;> simp [here, TcpServerPc.seenBy, mine]
  | creating other =>
    obtain ⟨_, server, _⟩ := createWorker_fields conns other
    simp only [Connections.serverStep, here]
    have moved : Owns { conns.createWorker other with server := .listening } id own :=
      (owns.createWorker other).server (by rintro _ _ ⟨⟩) (by rintro _ ⟨⟩)
    by_cases mine : other = id
    · subst mine
      have pc : (conns.peer other own).server = .creating := by
        simp [peer, here, TcpServerPc.seenBy]
      refine .step moved .server (fun asked _ => (orderly asked (.inr here)).peer owns) ?_
      simp only [Peer.step, Peer.serverStep, pc, ← peer_createWorker, peer_server,
        TcpServerPc.seenBy]
    · refine .unseen moved ?_
      rw [peer_server_same (conns.createWorker other)
        (by simp [server, here, TcpServerPc.seenBy, mine]), peer_createWorker_other (Ne.symm mine)]

/-- A client is accepted; nobody knows yet whose it is. -/
private theorem accept (listening : conns.server = .listening) :
    Follows strict conns id own
      { conns with
        sockets := conns.sockets ++ [⟨true, invalidNode⟩]
        server := .greeting conns.sockets.length } := by
  have opened : Owns { conns with sockets := conns.sockets ++ [⟨true, invalidNode⟩] } id own :=
    owns.sockets (by simp)
  refine .unseen (opened.server ?_ (by rintro _ ⟨⟩)) ?_
  · rintro sock member ⟨⟩
    exact Nat.lt_irrefl _ (owns.created _ member)
  · refine
      (peer_server_same { conns with sockets := conns.sockets ++ [⟨true, invalidNode⟩] } ?_).trans
      (peer_sockets fun sock member => isConnected_append _ (owns.created sock member))
    rw [listening]
    rfl

private theorem serverGreets {client : SockRef} (here : conns.server = .greeting client)
    (created : client < conns.sockets.length) (results : List OsRecv) :
    Follows strict conns id own (conns.serverGreets client results) := by
  have fresh : client ∉ own := fun member => owns.greeted client member here
  have idle : conns.server.seenBy id (own.idxOf ·) = .idle := by rw [here]; rfl
  unfold Connections.serverGreets
  split
  · exact .unseen owns rfl
  · refine .unseen ((owns.disconnect client).server (by rintro _ _ ⟨⟩) (by rintro _ ⟨⟩)) ?_
    refine (peer_server_same (conns.disconnect client) ?_).trans (peer_disconnect_other fresh)
    exact idle.symm
  · next other _ accepted =>
    have named : Owns (conns.modifySocket client fun socket => { socket with destId := other })
        id own := owns.sockets (List.length_modify ..).ge
    have unseen : peer (conns.modifySocket client fun socket => { socket with destId := other })
        id own = conns.peer id own :=
      peer_sockets fun sock _ => isConnected_setId client sock other
    by_cases mine : other = id
    · subst mine
      have up : conns.isConnected client = true := connected_of_greet accepted
      have place : (own ++ [client]).idxOf client = own.length := by
        simp [List.idxOf_append_of_notMem fresh]
      have joined :
          Owns { conns.modifySocket client fun socket => { socket with destId := other } with
          server := .listening } other (own ++ [client]) :=
        (named.server (by rintro _ _ ⟨⟩) (by rintro _ ⟨⟩)).append fresh
          (by rw [modifySocket, List.length_modify]; exact created) (by rintro ⟨⟩)
      -- The peer is seen to connect when it has told its id.
      refine .step (joined.server (by rintro _ _ ⟨⟩) ?_) .accept (fun _ => trivial) ?_
      · rintro _ ⟨⟩
        exact List.mem_append_right _ List.mem_cons_self
      · have pc : (conns.peer other own).server = .idle := idle
        rw [peer_server, named.peer_append ((isConnected_setId ..).trans up), unseen]
        simp only [Peer.step, pc, if_true, TcpServerPc.seenBy, place]
        rfl
    · refine .unseen (named.server (by rintro _ _ ⟨⟩) ?_) ?_
      · rintro _ ⟨⟩
        exact absurd rfl mine
      · refine (peer_server_same (conns.modifySocket client _) (Eq.trans ?_ idle.symm)).trans unseen
        simp [TcpServerPc.seenBy, mine]

/-- The connecting thread does something for another peer, or nothing for this one. -/
theorem connectorUnseen {connector : Connector}
    (before : conns.connector.seenBy id (own.idxOf ·) = .idle)
    (now : connector.seenBy id (own.idxOf ·) = .idle)
    (handles : connector.peer = id → ∀ sock, Handles connector.pc sock → sock ∈ own) :
    Follows strict conns id own { conns with connector := connector } :=
  .unseen (owns.connector handles) (peer_connector_same conns (now.trans before.symm))

private theorem nextPeer (idle : conns.connector.pc = .idle) :
    Follows strict conns id own conns.nextPeer := by
  have before : conns.connector.seenBy id (own.idxOf ·) = .idle := seenBy_idle idle _
  have nothing {connector : Connector} (done : connector.pc = .idle) :
      Follows strict conns id own { conns with connector := connector } := by
    refine owns.connectorUnseen before (seenBy_idle done _) fun _ sock handles => ?_
    rw [done] at handles
    rcases handles with handles | handles | handles <;> cases handles
  have elsewhere {connector : Connector} (other : connector.peer ≠ id) :
      Follows strict conns id own { conns with connector := connector } :=
    owns.connectorUnseen before (seenBy_other other _) fun same => absurd same other
  have pc : (conns.peer id own).monitor = .idle := before
  unfold Connections.nextPeer
  split
  · exact nothing ((endOfPass_pc ..).trans idle)
  · next other rest _ =>
    unfold Connector.visit
    split
    · exact nothing idle
    · exact nothing rfl
    · next vacant _ =>
      by_cases mine : other = id
      · subst mine
        have unregistered : (conns.peer other own).registered = none :=
          congrArg (Option.map (own.idxOf ·)) vacant
        refine .step (owns.connector ?_) .visit (fun _ => trivial) ?_
        · rintro _ sock (⟨⟨⟩⟩ | ⟨⟨⟩⟩ | ⟨⟨⟩⟩)
        · simp only [peer_connector, Connector.seenBy, if_true, MonitorPc.rename, Peer.step, pc,
            unregistered]
      · exact elsewhere mine
    · next client _ registered =>
      by_cases mine : other = id
      · subst mine
        have found : (conns.peer other own).registered = some (own.idxOf client) :=
          congrArg (Option.map (own.idxOf ·)) registered
        refine .step (owns.connector ?_) .visit (fun _ => trivial) ?_
        · rintro _ sock (⟨⟨⟩⟩ | ⟨⟨⟩⟩ | ⟨⟨⟩⟩)
          exact owns.refers client (.inl registered)
        · simp only [peer_connector, Connector.seenBy, if_true, MonitorPc.rename, Peer.step, pc,
            found]
      · exact elsewhere mine

/-- The connecting thread steps for another peer. -/
private theorem connectorStep_other (other : conns.connector.peer ≠ id) :
    Follows strict conns id own conns.connectorStep := by
  have before := seenBy_other other (own.idxOf ·)
  have handles {pc : MonitorPc} (same : conns.connector.peer = id) (sock : SockRef)
      (_ : Handles pc sock) : sock ∈ own := absurd same other
  have unseen (changed : Connections) (pc : MonitorPc) (still : changed.connector = conns.connector) :
      peer { changed with connector := { conns.connector with pc := pc } } id own =
        changed.peer id own :=
    peer_connector_same changed (by rw [still, before]; exact if_neg other)
  cases here : conns.connector.pc with
  | idle | pinging | connecting =>
    simp only [Connections.connectorStep, here]
    exact .unseen owns rfl
  | dead client =>
    simp only [Connections.connectorStep, here]
    exact .dies owns ((owns.disconnect client).connector handles)
      (unseen (conns.disconnect client) .stopping rfl)
  | stopping =>
    simp only [Connections.connectorStep, here]
    refine .unseen ((owns.stopWorker _).connector handles) ?_
    rw [unseen (conns.stopWorker _) .connecting rfl]
    exact peer_setWorker_other conns (Ne.symm other) none
  | upserting client =>
    obtain ⟨_, _, connector⟩ := upsertSocket_fields conns conns.connector.peer client
    simp only [Connections.connectorStep, here]
    refine ⟨own, (owns.upsertSocket fun same => absurd same other).connector handles, ?_⟩
    rw [unseen (conns.upsertSocket _ client) .starting connector]
    exact owns.reaches_upsertSocket (Ne.symm other) client
  | starting =>
    simp only [Connections.connectorStep, here]
    split
    · exact owns.connectorUnseen before (seenBy_idle rfl _) handles
    · exact owns.connectorUnseen before (if_neg other) handles
  | creating =>
    obtain ⟨_, _, connector⟩ := createWorker_fields conns conns.connector.peer
    simp only [Connections.connectorStep, here]
    refine .unseen ((owns.createWorker _).connector handles) ?_
    rw [peer_connector_same (conns.createWorker _)
      (by rw [connector]; exact (seenBy_idle rfl _).trans before.symm)]
    exact peer_createWorker_other (Ne.symm other)

/-- The connecting thread steps for this peer. -/
private theorem connectorStep (mine : conns.connector.peer = id)
    (orderly : strict → Orderly id conns .connector) :
    Follows strict conns id own conns.connectorStep := by
  subst mine
  have view {pc : MonitorPc} (here : conns.connector.pc = pc) :
      (conns.peer conns.connector.peer own).monitor = pc.rename (own.idxOf ·) := by
    simp [peer, Connector.seenBy, here]
  have moves {changed : Connections} (still : changed.Owns conns.connector.peer own) (pc : MonitorPc)
      (apart : ∀ sock, ¬ Handles pc sock) :
      Owns { changed with connector := { conns.connector with pc := pc } } conns.connector.peer own :=
    still.connector fun _ sock handles => absurd handles (apart sock)
  have seen (pc : MonitorPc) : Connector.seenBy conns.connector.peer (own.idxOf ·)
      { conns.connector with pc := pc } = pc.rename (own.idxOf ·) := if_pos rfl
  cases here : conns.connector.pc with
  | idle | pinging | connecting =>
    simp only [Connections.connectorStep, here]
    exact .unseen owns rfl
  | dead client =>
    have member := owns.refers client (.inr (.inr (.inr ⟨rfl, .inr (.inr here)⟩)))
    simp only [Connections.connectorStep, here]
    refine .step (moves (owns.disconnect client) .stopping (by rintro _ (⟨⟨⟩⟩ | ⟨⟨⟩⟩ | ⟨⟨⟩⟩)))
      (.monitor false) ?_ ?_
    · exact fun _ => orderly_monitor (view here) (by simp [MonitorPc.rename]) false
    · simp only [Peer.step, Peer.monitorStep, view here, MonitorPc.rename,
        ← owns.peer_disconnect member, peer_connector, seen]
  | stopping =>
    simp only [Connections.connectorStep, here]
    refine .step (moves (owns.stopWorker _) .connecting (by rintro _ (⟨⟨⟩⟩ | ⟨⟨⟩⟩ | ⟨⟨⟩⟩)))
      (.monitor false) ?_ ?_
    · intro asked
      refine ⟨?_, fun _ => ((orderly asked rfl).2 here).peer owns⟩
      rintro (starting | creating)
      · cases (view here).symm.trans starting
      · cases (view here).symm.trans creating
    · simp only [Peer.step, Peer.monitorStep, view here, MonitorPc.rename, ← peer_stopWorker,
        peer_connector, seen]
  | upserting client =>
    have member := owns.refers client (.inr (.inr (.inr ⟨rfl, .inr (.inl here)⟩)))
    simp only [Connections.connectorStep, here]
    refine .step (moves (owns.upsertSocket fun _ => member) .starting
      (by rintro _ (⟨⟨⟩⟩ | ⟨⟨⟩⟩ | ⟨⟨⟩⟩))) (.monitor false) ?_ ?_
    · exact fun _ => orderly_monitor (view here) (by simp [MonitorPc.rename]) false
    · simp only [Peer.step, Peer.monitorStep, view here, MonitorPc.rename,
        ← owns.peer_upsertSocket, peer_connector, seen]
  | starting =>
    have worker : (conns.peer conns.connector.peer own).worker.isSome =
        (conns.recvrs conns.connector.peer).isSome := Option.isSome_map
    simp only [Connections.connectorStep, here]
    refine .step (owns.connector ?_) (.monitor false) ?_ ?_
    · intro _ sock handles
      split at handles <;> rcases handles with ⟨⟨⟩⟩ | ⟨⟨⟩⟩ | ⟨⟨⟩⟩
    · intro asked
      refine ⟨fun _ => ((orderly asked rfl).1 (.inl here)).peer owns, ?_⟩
      intro stopping
      cases (view here).symm.trans stopping
    · simp only [Peer.step, Peer.monitorStep, view here, MonitorPc.rename, worker, peer_connector]
      split
      · rw [seenBy_idle rfl]
      · rw [seen]
        rfl
  | creating =>
    simp only [Connections.connectorStep, here]
    refine .step ((owns.createWorker _).connector fun _ sock handles =>
      absurd handles (Consistent.not_handles_done _ true sock)) (.monitor false) ?_ ?_
    · intro asked
      refine ⟨fun _ => ((orderly asked rfl).1 (.inr here)).peer owns, ?_⟩
      intro stopping
      cases (view here).symm.trans stopping
    · simp only [Peer.step, Peer.monitorStep, view here, MonitorPc.rename, ← peer_createWorker,
        peer_connector]
      rw [seenBy_idle rfl]

private theorem workerExits (other : NodeId) (reason : WorkerExit)
    (orderly : strict → Orderly id conns (.workerExits other reason)) :
    Follows strict conns id own (conns.workerExits other reason) := by
  unfold Connections.workerExits
  split
  · next sock entry =>
    have reads : other = id → sock ∈ own := by
      rintro rfl
      exact owns.refers sock (.inr (.inl ⟨_, entry, rfl⟩))
    have ends {changed : Connections} (still : changed.Owns id own) :
        Owns { changed with recvrs := Function.update changed.recvrs other (some ⟨some sock, false⟩) }
          id own := by
      apply still.setWorker
      rintro same _ ⟨⟩ _ ⟨⟩
      exact reads same
    by_cases mine : other = id
    · subst mine
      have reader : (conns.peer other own).worker = some ⟨some (own.idxOf sock), true⟩ :=
        congrArg (Option.map (RecvWorker.rename (own.idxOf ·))) entry
      have alive : (conns.peer other own).connected (own.idxOf sock) = conns.isConnected sock :=
        connected_idxOf (reads rfl)
      cases reason with
      | sawDisconnect =>
        dsimp only
        split
        · exact .unseen owns rfl
        · next down =>
          refine .step (ends owns) (.workerExits .sawDisconnect) (fun _ => trivial) ?_
          simp only [Peer.step, Peer.workerExits, reader, alive, if_neg down]
          exact peer_setWorker conns _
      | peerClosed =>
        refine .step (ends (owns.disconnect sock)) (.workerExits .peerClosed) (fun _ => trivial) ?_
        simp only [Peer.step, Peer.workerExits, reader, ← owns.peer_disconnect (reads rfl)]
        exact peer_setWorker (conns.disconnect sock) _
      | badHeader =>
        refine .step (ends (owns.disconnect sock)) (.workerExits .badHeader) (fun _ => trivial) ?_
        simp only [Peer.step, Peer.workerExits, reader, ← owns.peer_disconnect (reads rfl)]
        exact peer_setWorker (conns.disconnect sock) _
      | failed =>
        refine .step (ends owns) (.workerExits .failed)
          (fun asked => (orderly asked rfl).peer owns) ?_
        simp only [Peer.step, Peer.workerExits, reader]
        exact peer_setWorker conns _
    · have apart : id ≠ other := Ne.symm mine
      cases reason with
      | sawDisconnect =>
        dsimp only
        split
        · exact .unseen owns rfl
        · exact .unseen (ends owns) (peer_setWorker_other conns apart _)
      | peerClosed | badHeader =>
        exact .dies owns (ends (owns.disconnect sock))
          (peer_setWorker_other (conns.disconnect sock) apart _)
      | failed => exact .unseen (ends owns) (peer_setWorker_other conns apart _)
  · exact .unseen owns rfl

omit owns in
/-- The connecting thread gives up the peer it connects to. -/
theorem givesUp (connecting : conns.connector.pc = .connecting) (owned : after.Owns id own)
    (same : after.peer id own = conns.peer id own) (still : after.connector = conns.connector) :
    Follows strict conns id own { after with connector := conns.connector.done false } := by
  have free : Owns { after with connector := conns.connector.done false } id own :=
    owned.connector fun _ sock handles =>
      absurd handles (Consistent.not_handles_done _ false sock)
  by_cases mine : conns.connector.peer = id
  · have view : (conns.peer id own).monitor = .connecting := by
      simp [peer, Connector.seenBy, mine, connecting, MonitorPc.rename]
    refine .step free (.monitor false) (fun _ => orderly_monitor view (by simp) false) ?_
    rw [peer_connector, seenBy_idle rfl, same]
    simp [Peer.step, Peer.monitorStep, view]
  · refine .unseen free ((peer_connector_same after ?_).trans same)
    rw [still, seenBy_idle rfl, seenBy_other mine]

omit owns in
/-- The connecting thread has connected a socket and told its id. -/
private theorem dials (connecting : conns.connector.pc = .connecting)
    (smaller : conns.connector.peer < conns.myId) (owned : after.Owns id own)
    (same : after.peer id own = conns.peer id own) (still : after.connector = conns.connector)
    {client : SockRef} (fresh : client ∉ own) (created : client < after.sockets.length)
    (greeted : after.server ≠ .greeting client) (up : after.isConnected client = true) :
    Follows strict conns id own
      { after with connector := { conns.connector with pc := .upserting client } } := by
  by_cases mine : conns.connector.peer = id
  · subst mine
    have view : (conns.peer conns.connector.peer own).monitor = .connecting := by
      simp [peer, Connector.seenBy, connecting, MonitorPc.rename]
    have initiates : (conns.peer conns.connector.peer own).initiates = true := decide_eq_true smaller
    have place : (own ++ [client]).idxOf client = own.length := by
      simp [List.idxOf_append_of_notMem fresh]
    refine .step ((owned.append fresh created greeted).connector ?_) (.monitor true)
      (fun _ => orderly_monitor view (by simp) true) ?_
    · rintro _ sock (⟨⟨⟩⟩ | ⟨⟨⟩⟩ | ⟨⟨⟩⟩)
      exact List.mem_append_right _ List.mem_cons_self
    · rw [peer_connector after, owned.peer_append up, same]
      simp [Peer.step, Peer.monitorStep, view, initiates, Connector.seenBy, place, MonitorPc.rename,
        Peer.newSocket]
      rfl
  · refine .unseen (owned.connector fun mine' => absurd mine' mine) ?_
    rw [peer_connector_same after, same]
    rw [still, seenBy_other mine]
    exact if_neg mine

private theorem connectPeer (connecting : conns.connector.pc = .connecting)
    (greets : ∀ client, conns.server = .greeting client → client < conns.sockets.length)
    (link : Option (List OsSend)) : Follows strict conns id own (conns.connectPeer link) := by
  have opened (socket : TcpSocket) :
      Owns { conns with sockets := conns.sockets ++ [socket] } id own :=
    owns.sockets (by simp)
  have unseen (socket : TcpSocket) : peer { conns with sockets := conns.sockets ++ [socket] } id own =
      conns.peer id own :=
    peer_sockets fun sock member => isConnected_append socket (owns.created sock member)
  unfold Connections.connectPeer
  dsimp only
  split
  · exact givesUp connecting owns rfl rfl
  · next smaller =>
    split
    · exact givesUp connecting (opened _) (unseen _) rfl
    · split
      · exact .unseen owns rfl
      · next outcome returns =>
        split
        · next kept =>
          have up := TcpClient.sendAll_kept returns kept
          have fresh : conns.sockets.length ∉ own := fun member =>
            Nat.lt_irrefl _ (owns.created _ member)
          exact dials connecting (Int32.not_le.mp smaller) (opened _) (unseen _) rfl fresh (by simp)
            (fun greeting => Nat.lt_irrefl _ (greets _ greeting)) (by simp [isConnected, up])
        · exact givesUp connecting (opened _) (unseen _) rfl

/-- The ping has left the flag of its socket up or down; now the thread looks at the result. -/
theorem pinged (success : Bool) {client : SockRef} (pinging : conns.connector.pc = .pinging client)
    (owned : after.Owns id own) (still : after.connector = conns.connector)
    (reached : Reaches Peer.step (fun peer action => strict → peer.Orderly action)
      (conns.peer id own) (after.peer id own))
    {connector : Connector} (peer : connector.peer = conns.connector.peer)
    (pc : connector.pc = if success then .idle else .dead client)
    (alive : success = true → after.isConnected client = true) :
    Follows strict conns id own { after with connector := connector } := by
  by_cases mine : conns.connector.peer = id
  · have member := owns.refers client (.inr (.inr (.inr ⟨mine, .inl pinging⟩)))
    have moved : Owns { after with connector := connector } id own := by
      refine owned.connector fun _ sock handles => ?_
      rw [pc] at handles
      split at handles <;> rcases handles with ⟨⟨⟩⟩ | ⟨⟨⟩⟩ | ⟨⟨⟩⟩
      exact member
    have view : (after.peer id own).monitor = .pinging (own.idxOf client) := by
      simp [Connections.peer, Connector.seenBy, still, mine, pinging, MonitorPc.rename]
    have flag : (after.peer id own).connected (own.idxOf client) = after.isConnected client :=
      connected_idxOf member
    refine .tail reached moved (.monitor success)
      (fun _ => orderly_monitor view (by simp) success) ?_
    rw [peer_connector, Connector.seenBy, if_pos (peer.trans mine), pc]
    cases success with
    | true => simp [Peer.step, Peer.monitorStep, view, flag, alive, MonitorPc.rename]
    | false => simp [Peer.step, Peer.monitorStep, view, MonitorPc.rename]
  · refine ⟨own, owned.connector fun same => absurd (peer.symm.trans same) mine, ?_⟩
    rw [peer_connector_same after]
    · exact reached
    · rw [still, seenBy_other mine, seenBy_other (peer ▸ mine)]

private theorem pingPeer {client : SockRef} (pinging : conns.connector.pc = .pinging client)
    (leads : conns.LeadsTo client conns.connector.peer) (results : List OsSend) :
    Follows strict conns id own (conns.pingPeer client results) := by
  unfold Connections.pingPeer
  dsimp only
  split
  · next mismatch => exact absurd leads mismatch
  · split
    · exact .unseen owns rfl
    · next outcome returns =>
      have changed : Owns
          (conns.modifySocket client fun socket => { socket with connected := outcome.connected })
          id own := owns.sockets (List.length_modify ..).ge
      have flag (sock : SockRef) := isConnected_modifySocket conns client sock outcome.connected
      have exists_ : conns.sockets[client]?.isSome = true := by
        rw [List.getElem?_eq_getElem leads.lt]
        rfl
      -- A ping that finds the connection dead clears the flag before it returns.
      have reached : Reaches Peer.step (fun peer action => strict → peer.Orderly action)
          (conns.peer id own) (peer (conns.modifySocket client fun socket =>
            { socket with connected := outcome.connected }) id own) := by
        cases up : outcome.connected with
        | false => exact owns.dies client
        | true =>
          have before := TcpClient.connected_of_sendAll returns up
          have unseen : peer (conns.modifySocket client fun socket =>
              { socket with connected := true }) id own = conns.peer id own := by
            refine peer_sockets fun sock _ => ?_
            refine (up ▸ flag sock).trans ?_
            split
            · next same => rw [← same, before, exists_]; rfl
            · rfl
          rw [unseen]
          exact .refl
      split
      · next kept =>
        refine owns.pinged true pinging changed rfl reached rfl rfl fun _ => ?_
        rw [flag, if_pos rfl, exists_, TcpClient.sendAll_kept returns kept]
        rfl
      · exact owns.pinged false pinging changed rfl reached rfl rfl (by rintro ⟨⟩)

end Owns

/-- What one step of the node is for one peer. -/
theorem Owns.step (owns : conns.Owns id own) (consistent : Consistent conns) (action : Action)
    (orderly : strict → Orderly id conns action) :
    Follows strict conns id own (conns.step action) := by
  cases action with
  | listen =>
    simp only [Connections.step]
    split
    · next closed =>
      refine .unseen (owns.server (by rintro _ _ ⟨⟩) (by rintro _ ⟨⟩)) (peer_server_same conns ?_)
      rw [closed]
      rfl
    · exact .unseen owns rfl
  | accept =>
    simp only [Connections.step]
    split
    · next listening => exact owns.accept listening
    · exact .unseen owns rfl
  | greet results =>
    simp only [Connections.step]
    split
    · next client here => exact owns.serverGreets here (consistent.fresh client here).1 results
    · exact .unseen owns rfl
  | server => exact owns.serverStep orderly
  | next =>
    simp only [Connections.step]
    split
    · next idle => exact owns.nextPeer idle
    · exact .unseen owns rfl
  | connect link =>
    simp only [Connections.step]
    split
    · next connecting =>
      exact owns.connectPeer connecting (fun client here => (consistent.fresh client here).1) link
    · exact .unseen owns rfl
  | ping results =>
    simp only [Connections.step]
    split
    · next client pinging =>
      exact owns.pingPeer pinging (consistent.handled client (.inl pinging)) results
    · exact .unseen owns rfl
  | connector =>
    by_cases mine : conns.connector.peer = id
    · exact owns.connectorStep mine orderly
    · exact owns.connectorStep_other mine
  | connectionDies sock => exact ⟨own, owns.disconnect sock, owns.dies sock⟩
  | workerExits other reason => exact owns.workerExits other reason orderly

/-! ## Runs -/

/-- This is what a peer of a consistent node sees. -/
def Shows (id : NodeId) (conns : Connections) (peer : Peer) : Prop :=
  Consistent conns ∧ ∃ own, conns.Owns id own ∧ peer = conns.peer id own

theorem Shows.initial (id myId : NodeId) (remote connectTo : List NodeId) :
    Shows id (.initial myId remote connectTo) (.initial (id < myId)) := by
  refine ⟨.initial myId remote connectTo, [], ⟨List.nodup_nil, ?_, ?_, ?_⟩, ?_⟩
  · rintro _ ⟨⟩
  · rintro _ ⟨⟩
  · rintro sock (registered | ⟨_, reads, _⟩ | accepted | ⟨_, handles | handles | handles⟩)
    · cases registered
    · cases reads
    · cases accepted
    · cases handles
    · cases handles
    · cases handles
  · simp only [peer, Connections.initial, seenBy_idle]
    simp [Peer.initial, TcpServerPc.seenBy]
    rfl

theorem Shows.step {peer : Peer} (shows : Shows id conns peer) (action : Action)
    (orderly : strict → Orderly id conns action) :
    ∃ next, Reaches Peer.step (fun peer action => strict → peer.Orderly action) peer next ∧
      Shows id (conns.step action) next := by
  obtain ⟨consistent, own, owns, rfl⟩ := shows
  obtain ⟨later, owned, reached⟩ := owns.step consistent action orderly
  exact ⟨_, reached, Consistent.step conns action consistent, later, owned, rfl⟩

variable {myId : NodeId} {remote connectTo : List NodeId}

/-- While neither thread handles the peer, it sees both idle. -/
theorem Idle.peer (idle : conns.Idle id) : (conns.peer id own).Idle := by
  obtain ⟨notAccepted, notStarting, notCreating, connector⟩ := idle
  constructor
  · show conns.server.seenBy id (own.idxOf ·) = .idle
    cases here : conns.server with
    | accepted client other =>
      refine if_neg ?_
      rintro rfl
      exact notAccepted client here
    | starting other =>
      refine if_neg ?_
      rintro rfl
      exact notStarting here
    | creating other =>
      refine if_neg ?_
      rintro rfl
      exact notCreating here
    | _ => rfl
  · by_cases mine : conns.connector.peer = id
    · exact seenBy_idle (connector mine) _
    · exact seenBy_other mine _

private theorem Served.of_peer (owns : conns.Owns id own) (served : (conns.peer id own).Served) :
    conns.Served id := by
  intro sock registered alive
  have member := owns.refers sock (.inl registered)
  have reads := served (own.idxOf sock) (congrArg (Option.map (own.idxOf ·)) registered)
    ((connected_idxOf member).trans alive)
  exact owns.reads_of_peer reads

/-- Seen from any one peer, every run of the node is a run of `Peer`. -/
theorem run_seen (id : NodeId)
    (run : Reaches step (fun _ _ => True) (initial myId remote connectTo) conns) :
    ∃ own, conns.Owns id own ∧
      Reaches Peer.step (fun _ _ => True) (.initial (id < myId)) (conns.peer id own) := by
  obtain ⟨_, reached, _, own, owns, rfl⟩ := run.simulates (Shows id)
    (.initial id myId remote connectTo) fun conns peer action shows _ => by
      have all : False → Orderly id conns action := False.elim
      obtain ⟨next, steps, shown⟩ := shows.step action all
      exact ⟨next, steps.mono fun _ _ _ => trivial, shown⟩
  exact ⟨own, owns, reached⟩

/-- What `Peer.connected_socket_served` says of one peer holds for each peer of the node: in a run
that meets none of the three defects for the peer, whenever neither thread is handling it, its
registered socket, if connected, is read by its running worker. -/
theorem connected_sockets_served
    (run : Reaches step (Orderly id) (initial myId remote connectTo) conns) (idle : conns.Idle id) :
    conns.Served id := by
  obtain ⟨_, reached, _, own, owns, rfl⟩ := run.simulates (Shows id)
    (.initial id myId remote connectTo) fun conns peer action shows orderly => by
      obtain ⟨next, steps, shown⟩ := shows.step action fun _ : True => orderly
      exact ⟨next, steps.mono fun _ _ allowed => allowed trivial, shown⟩
  exact Served.of_peer owns ((Peer.Inv.run reached).served_idle idle.peer)

end Connections

end Eroil
