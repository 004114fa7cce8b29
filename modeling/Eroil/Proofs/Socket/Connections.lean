import Eroil.Lib.Machine
import Eroil.Model.Socket.Connections

/-! # What the registry of sockets holds

`ping_remote_peer` looks out for a registry in which a socket stands under the wrong id, and
`SocketRecvWorker::run` uses its socket without asking whether it has one. Neither goes wrong: in
every run of the two threads a registered socket carries the id that it is registered under, and so
does the socket of every worker. A connection that is up is registered, or one of the threads is
about to register it.
-/

namespace Eroil

open Lib

namespace TcpClient

/-- No call of `send_all` brings a connection up. -/
theorem connected_of_sendAll {connected : Bool} {data : List UInt8} {results : List OsSend}
    {outcome : SendOutcome} (returns : sendAll connected data results = some outcome)
    (up : outcome.connected = true) : connected = true := by
  cases connected with
  | true => rfl
  | false =>
    simp only [sendAll, refuses, Bool.not_false, if_true] at returns
    split at returns
    · cases returns
      cases up
    · cases returns

end TcpClient

namespace Connections

variable {conns : Connections}

/-- The socket exists and carries this id. -/
def LeadsTo (conns : Connections) (sock : SockRef) (id : NodeId) : Prop :=
  conns.sockets[sock]?.map (·.destId) = some id

/-- The connecting thread has this socket in its hands, with the peer it is for. -/
def Handles (pc : MonitorPc) (sock : SockRef) : Prop :=
  pc = .pinging sock ∨ pc = .upserting sock ∨ pc = .dead sock

/-- A socket that is up is registered or about to be. -/
def Held (conns : Connections) (sock : SockRef) : Prop :=
  (∃ id, conns.registry id = some sock) ∨ conns.server = .greeting sock ∨
    (∃ id, conns.server = .accepted sock id) ∨ conns.connector.pc = .upserting sock

/-- The invariant of the two threads. A client that has not told its id is known to the server
thread alone, and an id for which a worker is about to be started is registered. -/
structure Consistent (conns : Connections) : Prop where
  registered : ∀ id sock, conns.registry id = some sock → conns.LeadsTo sock id
  read : ∀ id worker, conns.recvrs id = some worker →
    ∃ sock, worker.sock = some sock ∧ conns.LeadsTo sock id
  accepted : ∀ client id, conns.server = .accepted client id → conns.LeadsTo client id
  handled : ∀ sock, Handles conns.connector.pc sock → conns.LeadsTo sock conns.connector.peer
  fresh : ∀ client, conns.server = .greeting client →
    client < conns.sockets.length ∧ (∀ id, conns.registry id ≠ some client) ∧
      (∀ id worker, conns.recvrs id = some worker → worker.sock ≠ some client) ∧
      ¬ Handles conns.connector.pc client
  serverStarts : ∀ id, conns.server = .starting id ∨ conns.server = .creating id →
    (conns.registry id).isSome = true
  connectorStarts : conns.connector.pc = .starting ∨ conns.connector.pc = .creating →
    (conns.registry conns.connector.peer).isSome = true
  held : ∀ sock, conns.isConnected sock = true → conns.Held sock

theorem Consistent.initial (myId : NodeId) (remote connectTo : List NodeId) :
    Consistent (.initial myId remote connectTo) where
  registered _ _ found := by cases found
  read _ _ found := by cases found
  accepted _ _ here := by cases here
  handled _ here := by rcases here with here | here | here <;> cases here
  fresh _ here := by cases here
  serverStarts _ here := by rcases here with here | here <;> cases here
  connectorStarts here := by rcases here with here | here <;> cases here
  held _ up := by cases up

/-! ## Sockets -/

theorem lookup_modifySocket (conns : Connections) (sock other : SockRef)
    (change : TcpSocket → TcpSocket) :
    (conns.modifySocket sock change).sockets[other]? =
      (conns.sockets[other]?).map fun socket => if sock = other then change socket else socket := by
  simp only [modifySocket, List.getElem?_modify]
  by_cases same : sock = other <;> simp [same]

/-- A change that keeps the id of the socket. -/
theorem leadsTo_modifySocket (sock other : SockRef) (id : NodeId) (change : TcpSocket → TcpSocket)
    (keeps : ∀ socket, (change socket).destId = socket.destId) :
    (conns.modifySocket sock change).LeadsTo other id ↔ conns.LeadsTo other id := by
  unfold LeadsTo
  rw [lookup_modifySocket, Option.map_map]
  have same : ((·.destId) ∘ fun socket => if sock = other then change socket else socket) =
      (TcpSocket.destId ·) := by
    funext socket
    by_cases here : sock = other <;> simp [here, keeps]
  rw [same]

private theorem leadsTo_disconnect (sock other : SockRef) (id : NodeId) :
    (conns.disconnect sock).LeadsTo other id ↔ conns.LeadsTo other id :=
  leadsTo_modifySocket sock other id _ fun _ => rfl

theorem LeadsTo.unique {sock : SockRef} {id other : NodeId} (first : conns.LeadsTo sock id)
    (second : conns.LeadsTo sock other) : id = other :=
  Option.some.inj (first.symm.trans second)

theorem LeadsTo.lt {sock : SockRef} {id : NodeId} (leads : conns.LeadsTo sock id) :
    sock < conns.sockets.length := by
  obtain ⟨_, found, _⟩ := Option.map_eq_some_iff.mp leads
  exact (List.getElem?_eq_some_iff.mp found).1

theorem isConnected_modifySocket (conns : Connections) (sock other : SockRef) (up : Bool) :
    (conns.modifySocket sock fun socket => { socket with connected := up }).isConnected other =
      if sock = other then conns.sockets[other]?.isSome && up else conns.isConnected other := by
  unfold isConnected
  rw [lookup_modifySocket]
  by_cases same : sock = other
  · cases conns.sockets[other]? <;> simp [same]
  · cases conns.sockets[other]? <;> simp [same]

/-- A new socket changes nothing for the others. -/
theorem LeadsTo.append {sock : SockRef} {id : NodeId} (leads : conns.LeadsTo sock id)
    (socket : TcpSocket) :
    LeadsTo { conns with sockets := conns.sockets ++ [socket] } sock id := by
  unfold LeadsTo
  rw [List.getElem?_append_left leads.lt]
  exact leads

private theorem leadsTo_new (conns : Connections) (socket : TcpSocket) :
    LeadsTo { conns with sockets := conns.sockets ++ [socket] } conns.sockets.length
      socket.destId := by
  simp [LeadsTo]

theorem connected_of_append {socket : TcpSocket} {sock : SockRef}
    (up : isConnected { conns with sockets := conns.sockets ++ [socket] } sock = true) :
    conns.isConnected sock = true ∨ sock = conns.sockets.length ∧ socket.connected = true := by
  simp only [isConnected, List.getElem?_append] at up
  split at up
  · exact .inl up
  · next outside =>
    refine .inr ?_
    obtain ⟨found, first, same⟩ : ∃ found, [socket][sock - conns.sockets.length]? = some found ∧
        found.connected = true := by
      cases entry : [socket][sock - conns.sockets.length]? with
      | none => simp [entry] at up
      | some found => exact ⟨found, rfl, by simpa [entry] using up⟩
    obtain ⟨here, rfl⟩ := List.getElem?_eq_some_iff.mp first
    simp only [List.length_singleton] at here
    have position : sock - conns.sockets.length = 0 := Nat.lt_one_iff.mp here
    refine ⟨Nat.le_antisymm (Nat.sub_eq_zero_iff_le.mp position) (Nat.not_lt.mp outside), ?_⟩
    simpa [position] using same

/-- What replacing a socket leaves alone. -/
theorem upsertSocket_fields (conns : Connections) (id : NodeId) (sock : SockRef) :
    (conns.upsertSocket id sock).registry = Function.update conns.registry id (some sock) ∧
      (conns.upsertSocket id sock).server = conns.server ∧
      (conns.upsertSocket id sock).connector = conns.connector := by
  unfold upsertSocket
  split <;> exact ⟨rfl, rfl, rfl⟩

theorem createWorker_fields (conns : Connections) (id : NodeId) :
    (conns.createWorker id).registry = conns.registry ∧
      (conns.createWorker id).server = conns.server ∧
      (conns.createWorker id).connector = conns.connector := by
  unfold createWorker
  split <;> exact ⟨rfl, rfl, rfl⟩

theorem endOfPass_pc (connector : Connector) (connectTo remote : List NodeId) :
    (connector.endOfPass connectTo remote).pc = connector.pc := by
  unfold Connector.endOfPass
  split
  · split_ifs <;> rfl
  · rfl
  · rfl

/-- The thread gets a socket from the registry, for the peer it has come to. -/
private theorem visit_handles {connector : Connector} {id : NodeId} {rest : List NodeId}
    {socket : Option SockRef} {sock : SockRef} (idle : connector.pc = .idle)
    (handles : Handles (connector.visit id rest socket).pc sock) :
    socket = some sock ∧ (connector.visit id rest socket).peer = id := by
  unfold Connector.visit at handles ⊢
  split at handles
  · rw [idle] at handles
    rcases handles with handles | handles | handles <;> cases handles
  · rcases handles with handles | handles | handles <;> cases handles
  · rcases handles with handles | handles | handles <;> cases handles
  · rcases handles with handles | handles | handles <;> cases handles
    exact ⟨rfl, rfl⟩

private theorem visit_not_starting {connector : Connector} {id : NodeId} {rest : List NodeId}
    {socket : Option SockRef} (idle : connector.pc = .idle) :
    ¬ ((connector.visit id rest socket).pc = .starting ∨
      (connector.visit id rest socket).pc = .creating) := by
  unfold Connector.visit
  split
  · simp [idle]
  · simp [Connector.done]
  · simp
  · simp

/-! ## Single changes -/

namespace Consistent

variable (consistent : Consistent conns)

include consistent

/-- The state of a socket changes; none comes up that nobody has. -/
theorem setConnected {sock : SockRef} {up : Bool} (before : up = true → conns.Held sock) :
    Consistent (conns.modifySocket sock fun socket => { socket with connected := up }) := by
  have keeps (other : SockRef) (id : NodeId) :
      (conns.modifySocket sock fun socket => { socket with connected := up }).LeadsTo other id ↔
        conns.LeadsTo other id := leadsTo_modifySocket sock other id _ fun _ => rfl
  refine ⟨?_, ?_, ?_, ?_, ?_, consistent.serverStarts, consistent.connectorStarts, ?_⟩
  · intro id other found
    exact (keeps other id).mpr (consistent.registered id other found)
  · intro id worker found
    obtain ⟨other, entry, leads⟩ := consistent.read id worker found
    exact ⟨other, entry, (keeps other id).mpr leads⟩
  · intro client id here
    exact (keeps client id).mpr (consistent.accepted client id here)
  · intro other here
    exact (keeps other _).mpr (consistent.handled other here)
  · intro client here
    obtain ⟨inside, apart⟩ := consistent.fresh client here
    refine ⟨?_, apart⟩
    simp only [modifySocket, List.length_modify]
    exact inside
  · intro other alive
    rw [isConnected_modifySocket] at alive
    split at alive
    · next same =>
      rw [Bool.and_eq_true] at alive
      exact same ▸ before alive.2
    · exact consistent.held other alive

theorem disconnect (sock : SockRef) : Consistent (conns.disconnect sock) := by
  apply consistent.setConnected
  rintro ⟨⟩

/-- A socket is registered under its id, in the place of one that is down. -/
theorem register {sock : SockRef} {id : NodeId} (leads : conns.LeadsTo sock id)
    (known : conns.server ≠ .greeting sock)
    (replaced : ∀ old, conns.registry id = some old → conns.isConnected old = false) :
    Consistent { conns with registry := Function.update conns.registry id (some sock) } := by
  have stays (other : NodeId) (present : (conns.registry other).isSome = true) :
      (Function.update conns.registry id (some sock) other).isSome = true := by
    rw [Function.update_apply]
    split
    · rfl
    · exact present
  refine ⟨?_, consistent.read, consistent.accepted, consistent.handled, ?_,
    fun other here => stays other (consistent.serverStarts other here),
    fun here => stays _ (consistent.connectorStarts here), ?_⟩
  · intro other found entry
    simp only [Function.update_apply] at entry
    split at entry
    · next same =>
      cases entry
      exact same ▸ leads
    · exact consistent.registered other found entry
  · intro client here
    obtain ⟨inside, unregistered, apart⟩ := consistent.fresh client here
    refine ⟨inside, ?_, apart⟩
    intro other entry
    simp only [Function.update_apply] at entry
    split at entry
    · cases entry
      exact known here
    · exact unregistered other entry
  · intro other up
    rcases consistent.held other up with ⟨place, entry⟩ | elsewhere
    · by_cases same : place = id
      · subst same
        have up : conns.isConnected other = true := up
        rw [replaced other entry] at up
        cases up
      · exact .inl ⟨place, (Function.update_of_ne same _ _).trans entry⟩
    · exact .inr elsewhere

theorem upsertSocket {sock : SockRef} {id : NodeId} (leads : conns.LeadsTo sock id)
    (known : conns.server ≠ .greeting sock) : Consistent (conns.upsertSocket id sock) := by
  unfold Connections.upsertSocket
  cases old : conns.registry id with
  | none =>
    refine consistent.register leads known ?_
    intro other entry
    cases old.symm.trans entry
  | some earlier =>
    refine (consistent.disconnect earlier).register ((leadsTo_disconnect earlier sock id).mpr leads)
      known ?_
    intro other entry
    cases old.symm.trans entry
    rw [Connections.disconnect, isConnected_modifySocket, if_pos rfl, Bool.and_false]

/-- A new socket that is down. -/
theorem append (socket : TcpSocket) (down : socket.connected = false) :
    Consistent { conns with sockets := conns.sockets ++ [socket] } := by
  refine ⟨?_, ?_, ?_, ?_, ?_, consistent.serverStarts, consistent.connectorStarts, ?_⟩
  · intro id sock entry
    exact (consistent.registered id sock entry).append _
  · intro id worker entry
    obtain ⟨sock, reading, leads⟩ := consistent.read id worker entry
    exact ⟨sock, reading, leads.append _⟩
  · intro client id here
    exact (consistent.accepted client id here).append _
  · intro sock here
    exact (consistent.handled sock here).append _
  · intro client here
    obtain ⟨inside, apart⟩ := consistent.fresh client here
    exact ⟨by rw [List.length_append]; exact Nat.lt_add_right _ inside, apart⟩
  · intro sock up
    rcases connected_of_append up with before | ⟨_, opened⟩
    · exact consistent.held sock before
    · rw [down] at opened
      cases opened

/-- The entry of a worker changes. -/
theorem setWorker {id : NodeId} {entry : Option RecvWorker}
    (reads : ∀ worker, entry = some worker → ∃ sock, worker.sock = some sock ∧
      conns.LeadsTo sock id ∧ conns.server ≠ .greeting sock) :
    Consistent { conns with recvrs := Function.update conns.recvrs id entry } := by
  refine ⟨consistent.registered, ?_, consistent.accepted, consistent.handled, ?_,
    consistent.serverStarts, consistent.connectorStarts, consistent.held⟩
  · intro other worker found
    simp only [Function.update_apply] at found
    split at found
    · next same =>
      obtain ⟨sock, reading, leads, _⟩ := reads worker found
      exact ⟨sock, reading, same ▸ leads⟩
    · exact consistent.read other worker found
  · intro client here
    obtain ⟨inside, unregistered, unread, apart⟩ := consistent.fresh client here
    refine ⟨inside, unregistered, ?_, apart⟩
    intro other worker found reading
    simp only [Function.update_apply] at found
    split at found
    · obtain ⟨sock, entry, _, known⟩ := reads worker found
      cases entry.symm.trans reading
      exact known here
    · exact unread other worker found reading

/-- A worker that is created where a socket is registered has that socket. -/
theorem createWorker {id : NodeId} (present : (conns.registry id).isSome = true) :
    Consistent (conns.createWorker id) := by
  unfold Connections.createWorker
  split
  · exact consistent
  · apply consistent.setWorker
    rintro _ ⟨⟩
    obtain ⟨sock, entry⟩ := Option.isSome_iff_exists.mp present
    refine ⟨sock, entry, consistent.registered id sock entry, ?_⟩
    intro greeting
    exact (consistent.fresh sock greeting).2.1 id entry

theorem stopWorker (id : NodeId) : Consistent (conns.stopWorker id) := by
  apply consistent.setWorker
  rintro _ ⟨⟩

/-- The server thread goes on, and lets go of no socket that is up and not registered. -/
theorem serverMoves {pc : TcpServerPc}
    (accepted : ∀ client id, pc = .accepted client id → conns.LeadsTo client id)
    (greeting : ∀ client, pc ≠ .greeting client)
    (starts : ∀ id, pc = .starting id ∨ pc = .creating id → (conns.registry id).isSome = true)
    (handsOver : ∀ sock, conns.isConnected sock = true →
      (conns.server = .greeting sock ∨ ∃ id, conns.server = .accepted sock id) →
      (∃ id, conns.registry id = some sock) ∨ ∃ id, pc = .accepted sock id) :
    Consistent { conns with server := pc } := by
  refine ⟨consistent.registered, consistent.read, accepted, consistent.handled,
    fun client here => absurd here (greeting client), starts, consistent.connectorStarts, ?_⟩
  intro sock up
  rcases consistent.held sock up with registered | greeted | taken | upserting
  · exact .inl registered
  · exact (handsOver sock up (.inl greeted)).imp_right fun taken => .inr (.inl taken)
  · exact (handsOver sock up (.inr taken)).imp_right fun taken => .inr (.inl taken)
  · exact .inr (.inr (.inr upserting))

/-- The connecting thread goes on, and lets go of no socket that is up and not registered. -/
theorem connectorMoves {connector : Connector}
    (handled : ∀ sock, Handles connector.pc sock → conns.LeadsTo sock connector.peer ∧
      conns.server ≠ .greeting sock)
    (starts : connector.pc = .starting ∨ connector.pc = .creating →
      (conns.registry connector.peer).isSome = true)
    (handsOver : ∀ sock, conns.isConnected sock = true → conns.connector.pc = .upserting sock →
      (∃ id, conns.registry id = some sock) ∨ connector.pc = .upserting sock) :
    Consistent { conns with connector := connector } := by
  refine ⟨consistent.registered, consistent.read, consistent.accepted,
    fun sock here => (handled sock here).1, ?_, consistent.serverStarts, starts, ?_⟩
  · intro client here
    obtain ⟨inside, unregistered, unread, _⟩ := consistent.fresh client here
    exact ⟨inside, unregistered, unread, fun handles => (handled client handles).2 here⟩
  · intro sock up
    rcases consistent.held sock up with registered | greeted | taken | upserting
    · exact .inl registered
    · exact .inr (.inl greeted)
    · exact .inr (.inr (.inl taken))
    · exact (handsOver sock up upserting).imp_right fun still => .inr (.inr still)

/-! ## The steps -/

theorem accept (listening : conns.server = .listening) : Consistent
    { conns with
      sockets := conns.sockets ++ [⟨true, invalidNode⟩]
      server := .greeting conns.sockets.length } := by
  have older {sock : SockRef} {id : NodeId} (leads : conns.LeadsTo sock id) :
      sock ≠ conns.sockets.length := Nat.ne_of_lt leads.lt
  refine ⟨?_, ?_, ?_, ?_, ?_, ?_, consistent.connectorStarts, ?_⟩
  · intro id sock entry
    exact (consistent.registered id sock entry).append _
  · intro id worker entry
    obtain ⟨sock, reading, leads⟩ := consistent.read id worker entry
    exact ⟨sock, reading, leads.append _⟩
  · rintro _ _ ⟨⟩
  · intro sock here
    exact (consistent.handled sock here).append _
  · rintro _ ⟨⟩
    refine ⟨by simp, ?_, ?_, ?_⟩
    · intro id entry
      exact older (consistent.registered id _ entry) rfl
    · intro id worker entry reading
      obtain ⟨sock, same, leads⟩ := consistent.read id worker entry
      cases same.symm.trans reading
      exact older leads rfl
    · intro here
      exact older (consistent.handled _ here) rfl
  · rintro _ (⟨⟨⟩⟩ | ⟨⟨⟩⟩)
  · intro sock up
    rcases connected_of_append up with before | ⟨rfl, _⟩
    · rcases consistent.held sock before with registered | greeted | ⟨_, taken⟩ | upserting
      · exact .inl registered
      · cases listening.symm.trans greeted
      · cases listening.symm.trans taken
      · exact .inr (.inr (.inr upserting))
    · exact .inr (.inl rfl)

/-- A client has told its id, and carries it from now on. -/
theorem greeted {client : SockRef} (here : conns.server = .greeting client) (id : NodeId) : Consistent
    { conns.modifySocket client fun socket => { socket with destId := id } with
      server := .accepted client id } := by
  obtain ⟨inside, unregistered, unread, apart⟩ := consistent.fresh client here
  have others {sock : SockRef} (different : sock ≠ client) {other : NodeId}
      (leads : conns.LeadsTo sock other) :
      (conns.modifySocket client fun socket => { socket with destId := id }).LeadsTo sock other := by
    unfold LeadsTo
    rw [lookup_modifySocket, Option.map_map]
    simp only [Function.comp_def, Ne.symm different, if_false]
    exact leads
  have connected (sock : SockRef) :
      (conns.modifySocket client fun socket => { socket with destId := id }).isConnected sock =
        conns.isConnected sock := by
    unfold isConnected
    rw [lookup_modifySocket, Option.map_map]
    congr 2
    funext socket
    simp only [Function.comp_apply]
    split <;> rfl
  refine ⟨?_, ?_, ?_, ?_, by rintro _ ⟨⟩, by rintro _ (⟨⟨⟩⟩ | ⟨⟨⟩⟩), consistent.connectorStarts, ?_⟩
  · intro other sock entry
    refine others ?_ (consistent.registered other sock entry)
    rintro rfl
    exact unregistered other entry
  · intro other worker entry
    obtain ⟨sock, reading, leads⟩ := consistent.read other worker entry
    refine ⟨sock, reading, others ?_ leads⟩
    rintro rfl
    exact unread other worker entry reading
  · rintro _ _ ⟨⟩
    simp [LeadsTo, lookup_modifySocket, inside]
  · intro sock handles
    refine others ?_ (consistent.handled sock handles)
    rintro rfl
    exact apart handles
  · intro sock up
    rcases consistent.held sock ((connected sock).symm.trans up) with
      registered | greeting | ⟨_, taken⟩ | upserting
    · exact .inl registered
    · cases here.symm.trans greeting
      exact .inr (.inr (.inl ⟨id, rfl⟩))
    · cases here.symm.trans taken
    · exact .inr (.inr (.inr upserting))

theorem serverGreets {client : SockRef} (here : conns.server = .greeting client)
    (results : List OsRecv) : Consistent (conns.serverGreets client results) := by
  unfold Connections.serverGreets
  split
  · exact consistent
  · refine (consistent.disconnect client).serverMoves (by rintro _ _ ⟨⟩) (by rintro _ ⟨⟩)
      (by rintro _ (⟨⟨⟩⟩ | ⟨⟨⟩⟩)) ?_
    intro sock up held
    rcases held with greeting | ⟨id, taken⟩
    · cases here.symm.trans greeting
      rw [Connections.disconnect, isConnected_modifySocket, if_pos rfl, Bool.and_false] at up
      cases up
    · cases here.symm.trans taken
  · exact consistent.greeted here _

theorem serverStep : Consistent conns.serverStep := by
  cases here : conns.server with
  | closed | listening | greeting =>
    simp only [Connections.serverStep, here]
    exact consistent
  | accepted client id =>
    obtain ⟨registry, server, _⟩ := upsertSocket_fields conns id client
    have registered : (conns.upsertSocket id client).registry id = some client := by
      rw [registry, Function.update_self]
    simp only [Connections.serverStep, here]
    refine (consistent.upsertSocket (consistent.accepted client id here) (by simp [here])).serverMoves
      (by rintro _ _ ⟨⟩) (by rintro _ ⟨⟩) ?_ ?_
    · rintro _ (⟨⟨⟩⟩ | ⟨⟨⟩⟩)
      rw [registered]
      rfl
    · intro sock _ held
      rw [server, here] at held
      rcases held with held | ⟨_, held⟩ <;> cases held
      exact .inl ⟨id, registered⟩
  | starting id =>
    have present := consistent.serverStarts id (.inl here)
    simp only [Connections.serverStep, here]
    refine consistent.serverMoves ?_ ?_ ?_ ?_
    · intro client other found
      split at found <;> cases found
    · intro client found
      split at found <;> cases found
    · intro other found
      split at found <;> rcases found with ⟨⟨⟩⟩ | ⟨⟨⟩⟩
      exact present
    · intro sock _ held
      rw [here] at held
      rcases held with held | ⟨_, held⟩ <;> cases held
  | creating id =>
    have present := consistent.serverStarts id (.inr here)
    obtain ⟨_, server, _⟩ := createWorker_fields conns id
    simp only [Connections.serverStep, here]
    refine (consistent.createWorker present).serverMoves (by rintro _ _ ⟨⟩) (by rintro _ ⟨⟩)
      (by rintro _ (⟨⟨⟩⟩ | ⟨⟨⟩⟩)) ?_
    intro sock _ held
    rw [server, here] at held
    rcases held with held | ⟨_, held⟩ <;> cases held

omit consistent in
theorem not_handles_done (connector : Connector) (counts : Bool) (sock : SockRef) :
    ¬ Handles (connector.done counts).pc sock := by
  rintro (⟨⟨⟩⟩ | ⟨⟨⟩⟩ | ⟨⟨⟩⟩)

/-- The connecting thread is through with its peer. -/
theorem connectorDone (counts : Bool) (registered : ∀ sock, conns.connector.pc = .upserting sock →
    ∃ id, conns.registry id = some sock) :
    Consistent { conns with connector := conns.connector.done counts } := by
  refine consistent.connectorMoves ?_ ?_ fun sock _ here => .inl (registered sock here)
  · intro sock handles
    exact absurd handles (not_handles_done _ counts sock)
  · rintro (⟨⟨⟩⟩ | ⟨⟨⟩⟩)

theorem nextPeer (idle : conns.connector.pc = .idle) : Consistent conns.nextPeer := by
  have letsGo (sock : SockRef) : conns.connector.pc ≠ .upserting sock := by
    rw [idle]
    rintro ⟨⟩
  cases left : conns.connector.left with
  | nil =>
    have pc : (conns.connector.endOfPass conns.connectTo conns.remote).pc = .idle :=
      (endOfPass_pc ..).trans idle
    simp only [Connections.nextPeer, left]
    refine consistent.connectorMoves ?_ ?_ fun sock _ here => absurd here (letsGo sock)
    · intro sock handles
      rw [pc] at handles
      rcases handles with handles | handles | handles <;> cases handles
    · intro starts
      rw [pc] at starts
      rcases starts with starts | starts <;> cases starts
  | cons id rest =>
    simp only [Connections.nextPeer, left]
    refine consistent.connectorMoves ?_ ?_ fun sock _ here => absurd here (letsGo sock)
    · intro sock handles
      obtain ⟨entry, peer⟩ := visit_handles idle handles
      rw [peer]
      exact ⟨consistent.registered id sock entry,
        fun greeting => (consistent.fresh sock greeting).2.1 id entry⟩
    · intro starts
      exact absurd starts (visit_not_starting idle)

theorem connectPeer (connecting : conns.connector.pc = .connecting) (link : Option (List OsSend)) :
    Consistent (conns.connectPeer link) := by
  have letsGo (sock : SockRef) : conns.connector.pc ≠ .upserting sock := by
    rw [connecting]
    rintro ⟨⟩
  unfold Connections.connectPeer
  dsimp only
  split
  · exact consistent.connectorDone false fun sock here => absurd here (letsGo sock)
  · split
    · exact (consistent.append _ rfl).connectorDone false fun sock here => absurd here (letsGo sock)
    · split
      · exact consistent
      · split
        · next outcome _ _ =>
          let down : TcpSocket := ⟨false, conns.connector.peer⟩
          let next := { conns.connector with pc := .upserting conns.sockets.length }
          have upserting : Consistent
              { conns with sockets := conns.sockets ++ [down], connector := next } := by
            refine (consistent.append down rfl).connectorMoves ?_ (by rintro (⟨⟨⟩⟩ | ⟨⟨⟩⟩))
              fun sock _ here => absurd here (letsGo sock)
            rintro sock (⟨⟨⟩⟩ | ⟨⟨⟩⟩ | ⟨⟨⟩⟩)
            exact ⟨leadsTo_new conns down,
              fun greeting => Nat.lt_irrefl _ (consistent.fresh _ greeting).1⟩
          have raised : Consistent (modifySocket
              { conns with sockets := conns.sockets ++ [down], connector := next }
              conns.sockets.length fun socket => { socket with connected := outcome.connected }) :=
            upserting.setConnected fun _ => .inr (.inr (.inr rfl))
          have same : (conns.sockets ++ [down]).modify conns.sockets.length
              (fun socket => { socket with connected := outcome.connected }) =
                conns.sockets ++ [⟨outcome.connected, conns.connector.peer⟩] := by
            rw [List.modify_eq_take_cons_drop (by simp)]
            simp [down]
          rw [modifySocket, same] at raised
          exact raised
        · exact (consistent.append _ rfl).connectorDone false fun sock here =>
            absurd here (letsGo sock)

theorem pingPeer {client : SockRef} (pinging : conns.connector.pc = .pinging client)
    (results : List OsSend) : Consistent (conns.pingPeer client results) := by
  have letsGo (sock : SockRef) : conns.connector.pc ≠ .upserting sock := by
    rw [pinging]
    rintro ⟨⟩
  unfold Connections.pingPeer
  dsimp only
  split
  · exact consistent.connectorDone false fun sock here => absurd here (letsGo sock)
  · split
    · exact consistent
    · next outcome returns =>
      have up : outcome.connected = true → conns.Held client := fun alive =>
        consistent.held client (TcpClient.connected_of_sendAll returns alive)
      have changed := consistent.setConnected up
      split
      · exact changed.connectorDone false fun sock here => absurd here (letsGo sock)
      · refine changed.connectorMoves ?_ (by rintro (⟨⟨⟩⟩ | ⟨⟨⟩⟩)) fun sock _ here =>
          absurd here (letsGo sock)
        rintro sock (⟨⟨⟩⟩ | ⟨⟨⟩⟩ | ⟨⟨⟩⟩)
        exact ⟨changed.handled client (.inl pinging),
          fun greeting => (consistent.fresh client greeting).2.2.2 (.inl pinging)⟩

theorem connectorStep : Consistent conns.connectorStep := by
  have letsGo {pc : MonitorPc} (here : conns.connector.pc = pc)
      (other : ∀ sock, pc ≠ .upserting sock) (sock : SockRef) :
      conns.connector.pc ≠ .upserting sock := by
    rw [here]
    exact other sock
  cases here : conns.connector.pc with
  | idle | pinging | connecting =>
    simp only [Connections.connectorStep, here]
    exact consistent
  | dead client =>
    simp only [Connections.connectorStep, here]
    refine (consistent.disconnect client).connectorMoves ?_ (by rintro (⟨⟨⟩⟩ | ⟨⟨⟩⟩))
      fun sock _ upserting => absurd upserting (letsGo here (by rintro _ ⟨⟩) sock)
    rintro sock (⟨⟨⟩⟩ | ⟨⟨⟩⟩ | ⟨⟨⟩⟩)
  | stopping =>
    simp only [Connections.connectorStep, here]
    refine (consistent.stopWorker _).connectorMoves ?_ (by rintro (⟨⟨⟩⟩ | ⟨⟨⟩⟩))
      fun sock _ upserting => absurd upserting (letsGo here (by rintro _ ⟨⟩) sock)
    rintro sock (⟨⟨⟩⟩ | ⟨⟨⟩⟩ | ⟨⟨⟩⟩)
  | upserting client =>
    obtain ⟨registry, _, connector⟩ := upsertSocket_fields conns conns.connector.peer client
    have registered : (conns.upsertSocket conns.connector.peer client).registry
        conns.connector.peer = some client := by
      rw [registry, Function.update_self]
    have known : conns.server ≠ .greeting client := fun greeting =>
      (consistent.fresh client greeting).2.2.2 (.inr (.inl here))
    simp only [Connections.connectorStep, here]
    refine (consistent.upsertSocket (consistent.handled client (.inr (.inl here)))
      known).connectorMoves ?_ ?_ ?_
    · rintro sock (⟨⟨⟩⟩ | ⟨⟨⟩⟩ | ⟨⟨⟩⟩)
    · intro _
      exact Option.isSome_iff_exists.mpr ⟨client, registered⟩
    · intro sock _ upserting
      rw [connector, here] at upserting
      cases upserting
      exact .inl ⟨_, registered⟩
  | starting =>
    have present := consistent.connectorStarts (.inl here)
    simp only [Connections.connectorStep, here]
    split
    · exact consistent.connectorDone true fun sock upserting =>
        absurd upserting (letsGo here (by rintro _ ⟨⟩) sock)
    · refine consistent.connectorMoves ?_ (fun _ => present) fun sock _ upserting =>
        absurd upserting (letsGo here (by rintro _ ⟨⟩) sock)
      rintro sock (⟨⟨⟩⟩ | ⟨⟨⟩⟩ | ⟨⟨⟩⟩)
  | creating =>
    have present := consistent.connectorStarts (.inr here)
    obtain ⟨_, _, connector⟩ := createWorker_fields conns conns.connector.peer
    simp only [Connections.connectorStep, here]
    have changed := (consistent.createWorker present).connectorDone true fun sock upserting =>
      absurd (connector ▸ upserting) (letsGo here (by rintro _ ⟨⟩) sock)
    rwa [connector] at changed

theorem workerExits (id : NodeId) (reason : WorkerExit) :
    Consistent (conns.workerExits id reason) := by
  unfold Connections.workerExits
  split
  · next sock entry =>
    obtain ⟨_, reading, leads⟩ := consistent.read id _ entry
    cases reading
    have known : conns.server ≠ .greeting sock := by
      intro greeting
      exact (consistent.fresh sock greeting).2.2.1 id _ entry rfl
    have ended : Consistent
        { conns with recvrs := Function.update conns.recvrs id (some ⟨some sock, false⟩) } := by
      apply consistent.setWorker
      rintro _ ⟨⟩
      exact ⟨sock, rfl, leads, known⟩
    cases reason with
    | sawDisconnect =>
      dsimp only
      split
      · exact consistent
      · exact ended
    | peerClosed | badHeader => exact ended.disconnect sock
    | failed => exact ended
  · exact consistent

omit consistent in
theorem step (conns : Connections) (action : Action) (consistent : Consistent conns) :
    Consistent (conns.step action) := by
  cases action with
  | listen =>
    simp only [Connections.step]
    split
    · next closed =>
      refine consistent.serverMoves (by rintro _ _ ⟨⟩) (by rintro _ ⟨⟩) (by rintro _ (⟨⟨⟩⟩ | ⟨⟨⟩⟩)) ?_
      intro sock _ held
      rw [closed] at held
      rcases held with held | ⟨_, held⟩ <;> cases held
    · exact consistent
  | accept =>
    simp only [Connections.step]
    split
    · next listening => exact consistent.accept listening
    · exact consistent
  | greet results =>
    simp only [Connections.step]
    split
    · next client here => exact consistent.serverGreets here results
    · exact consistent
  | server => exact consistent.serverStep
  | next =>
    simp only [Connections.step]
    split
    · next idle => exact consistent.nextPeer idle
    · exact consistent
  | connect link =>
    simp only [Connections.step]
    split
    · next connecting => exact consistent.connectPeer connecting link
    · exact consistent
  | ping results =>
    simp only [Connections.step]
    split
    · next client pinging => exact consistent.pingPeer pinging results
    · exact consistent
  | connector => exact consistent.connectorStep
  | connectionDies sock => exact consistent.disconnect sock
  | workerExits id reason => exact consistent.workerExits id reason

end Consistent

/-- In every run of the server thread and the connecting thread, a registered socket carries the id
that it is registered under, so no socket has two entries; a worker has a socket, and it is one of
its peer; the socket that is pinged is one of the peer that is visited; and every connection that is
up is registered or in the hands of a thread that is going to register it. -/
theorem registry_consistent {myId : NodeId} {remote connectTo : List NodeId}
    (run : Reaches step (fun _ _ => True) (initial myId remote connectTo) conns) :
    (∀ id sock, conns.registry id = some sock → conns.LeadsTo sock id) ∧
      (∀ id other sock, conns.registry id = some sock → conns.registry other = some sock →
        id = other) ∧
      (∀ id worker, conns.recvrs id = some worker →
        ∃ sock, worker.sock = some sock ∧ conns.LeadsTo sock id) ∧
      (∀ client, conns.connector.pc = .pinging client →
        conns.LeadsTo client conns.connector.peer) ∧
      ∀ sock, conns.isConnected sock = true → conns.Held sock := by
  have consistent := run.invariant Consistent (.initial myId remote connectTo)
    fun conns action consistent _ => Consistent.step conns action consistent
  refine ⟨consistent.registered, ?_, consistent.read, ?_, consistent.held⟩
  · intro id other sock first second
    exact (consistent.registered id sock first).unique (consistent.registered other sock second)
  · intro client pinging
    exact consistent.handled client (.inl pinging)

/-- Node 2 connects to node 1 and is connected to by node 3. -/
def twoPeers : Connections :=
  [Action.listen, .next, .connect (some [.sent 28]), .connector, .connector, .connector, .accept,
    .greet [.received (Frame.connect.bytes 3)], .server, .server, .server].foldl step
    (initial 2 [1, 3] [1])

theorem registry_consistent_two :
    twoPeers.registry 1 = some 0 ∧ twoPeers.registry 3 = some 1 ∧ twoPeers.LeadsTo 1 3 ∧
      ∃ sock, twoPeers.LeadsTo sock 1 := by
  have run : Reaches step (fun _ _ => True) (initial 2 [1, 3] [1]) twoPeers :=
    .foldl _ (fun _ _ _ => trivial) _
  have second : twoPeers.registry 3 = some 1 := by decide +kernel
  have worker : twoPeers.recvrs 1 = some ⟨some 0, true⟩ := by decide +kernel
  obtain ⟨registered, _, read, _⟩ := registry_consistent run
  obtain ⟨sock, _, leads⟩ := read 1 _ worker
  exact ⟨by decide +kernel, second, registered 3 1 second, sock, leads⟩

end Connections

end Eroil
