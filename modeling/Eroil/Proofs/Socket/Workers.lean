import Eroil.Lib.Machine
import Eroil.Model.Socket.Peer

/-! # A connected socket has a reader

Whoever registers a socket for a peer goes on to start its receive worker, so between the two
threads either the registered socket is read or somebody is about to see to it. Three things break
this: a worker entry left over from an earlier socket makes the start be refused, the monitor stops
a worker that meanwhile serves a new socket, and a worker ends on a receive error that leaves the
socket marked as connected.
-/

namespace Eroil.Peer

open Lib

variable {peer : Peer}

/-- The registered socket, if connected, is read by a running worker. -/
def Served (peer : Peer) : Prop :=
  ∀ sock, peer.registered = some sock → peer.connected sock = true →
    peer.worker = some ⟨some sock, true⟩

/-- Neither thread is in the middle of handling the peer. -/
def Idle (peer : Peer) : Prop := peer.server = .idle ∧ peer.monitor = .idle

/-- One of the threads is about to start a worker. -/
def Starting (peer : Peer) : Prop :=
  peer.server = .starting ∨ peer.server = .creating ∨
    peer.monitor = .starting ∨ peer.monitor = .creating

/-- No worker entry of an earlier socket stands in the way of a connected one. -/
def NoLeftover (peer : Peer) : Prop :=
  ∀ sock worker, peer.registered = some sock → peer.connected sock = true →
    peer.worker = some worker → worker = ⟨some sock, true⟩

/-- The worker is not reading a registered socket that is connected. -/
def Unneeded (peer : Peer) : Prop :=
  ∀ sock, peer.registered = some sock → peer.connected sock = true →
    peer.worker ≠ some ⟨some sock, true⟩

/-- The step meets none of the three defects. -/
def Orderly (peer : Peer) : Action → Prop
  | .server => peer.server = .starting ∨ peer.server = .creating → peer.NoLeftover
  | .monitor _ =>
      (peer.monitor = .starting ∨ peer.monitor = .creating → peer.NoLeftover) ∧
        (peer.monitor = .stopping → peer.Unneeded)
  | .workerExits .failed => peer.Unneeded
  | _ => True

/-- Sockets in use have been created, and the registered one is served or about to be. -/
structure Inv (peer : Peer) : Prop where
  created : ∀ sock, peer.registered = some sock → sock < peer.nextSock
  accepted : ∀ client, peer.server = .accepted client → client < peer.nextSock
  upserting : ∀ client, peer.monitor = .upserting client → client < peer.nextSock
  served : peer.Served ∨ peer.Starting

theorem Inv.initial (initiates : Bool) : Inv (initial initiates) where
  created _ found := by cases found
  accepted _ found := by cases found
  upserting _ found := by cases found
  served := .inl fun _ found => by cases found

/-- Whether the socket is served depends on the registry, the flags and the worker only. -/
theorem Served.of_eq {after : Peer} (served : peer.Served)
    (registered : after.registered = peer.registered)
    (connected : ∀ sock, peer.registered = some sock → after.connected sock = true →
      peer.connected sock = true)
    (worker : after.worker = peer.worker) : after.Served := by
  intro sock found alive
  rw [registered] at found
  rw [worker]
  exact served sock found (connected sock found alive)

theorem connected_of_disconnect {sock other : SockRef}
    (alive : (peer.disconnect other).connected sock = true) : peer.connected sock = true := by
  by_cases same : sock = other
  · subst same
    simp [disconnect] at alive
  · simpa [disconnect, same] using alive

theorem Served.disconnect (served : peer.Served) (sock : SockRef) : (peer.disconnect sock).Served :=
  served.of_eq rfl (fun _ _ => connected_of_disconnect) rfl

/-- A new socket is not the registered one. -/
theorem Inv.connected_of_newSocket (inv : Inv peer) {sock : SockRef}
    (found : peer.registered = some sock) (alive : peer.newSocket.2.connected sock = true) :
    peer.connected sock = true := by
  have older : sock ≠ peer.nextSock := Nat.ne_of_lt (inv.created sock found)
  simpa [newSocket, older] using alive

/-- Without a leftover, an existing worker serves the registered socket. -/
theorem NoLeftover.served (clean : peer.NoLeftover) (present : peer.worker.isSome = true) :
    peer.Served := by
  intro sock found alive
  obtain ⟨worker, entry⟩ := Option.isSome_iff_exists.mp present
  rw [entry, clean sock worker found alive entry]

/-- After the second half of the start, the registered socket is served. -/
theorem NoLeftover.createWorker (clean : peer.NoLeftover) : peer.createWorker.Served := by
  unfold Peer.createWorker
  split
  · next worker entry => exact clean.served (by rw [entry]; rfl)
  · intro sock found _
    exact congrArg (fun registered => some (⟨registered, true⟩ : RecvWorker)) found

/-- A worker that is not needed can go. -/
theorem Unneeded.served {after : Peer} (unneeded : peer.Unneeded) (served : peer.Served)
    (registered : after.registered = peer.registered) (connected : after.connected = peer.connected) :
    after.Served := by
  intro sock found alive
  rw [registered] at found
  rw [connected] at alive
  exact absurd (served sock found alive) (unneeded sock found alive)

/-- Replacing the socket leaves the threads where they are. -/
theorem upsertSocket_fields (peer : Peer) (sock : SockRef) :
    (peer.upsertSocket sock).registered = some sock ∧
      (peer.upsertSocket sock).nextSock = peer.nextSock ∧
      (peer.upsertSocket sock).server = peer.server ∧
      (peer.upsertSocket sock).monitor = peer.monitor := by
  unfold upsertSocket
  split <;> exact ⟨rfl, rfl, rfl, rfl⟩

theorem createWorker_fields (peer : Peer) :
    peer.createWorker.registered = peer.registered ∧
      peer.createWorker.nextSock = peer.nextSock ∧
      peer.createWorker.server = peer.server ∧ peer.createWorker.monitor = peer.monitor := by
  unfold createWorker
  split <;> exact ⟨rfl, rfl, rfl, rfl⟩

theorem Inv.serverStep (inv : Inv peer) (orderly : peer.Orderly .server) : Inv peer.serverStep := by
  cases here : peer.server with
  | idle =>
    simp only [Peer.serverStep, here]
    exact inv
  | accepted client =>
    obtain ⟨registered, next, _, monitor⟩ := upsertSocket_fields peer client
    simp only [Peer.serverStep, here]
    refine ⟨?_, by simp, ?_, .inr (.inl rfl)⟩
    · intro sock found
      cases registered.symm.trans found
      exact next ▸ inv.accepted client here
    · intro other found
      exact next ▸ inv.upserting other (monitor.symm.trans found)
  | starting =>
    have clean := orderly (.inl here)
    simp only [Peer.serverStep, here]
    split
    · next present =>
      exact ⟨inv.created, by simp, inv.upserting, .inl (clean.served present)⟩
    · exact ⟨inv.created, by simp, inv.upserting, .inr (.inr (.inl rfl))⟩
  | creating =>
    have clean := orderly (.inr here)
    obtain ⟨registered, next, _, monitor⟩ := createWorker_fields peer
    simp only [Peer.serverStep, here]
    refine ⟨?_, by simp, ?_, .inl clean.createWorker⟩
    · intro sock found
      exact next ▸ inv.created sock (registered.symm.trans found)
    · intro other found
      exact next ▸ inv.upserting other (monitor.symm.trans found)

/-- While the monitor is not about to start a worker, either the socket is served or the server will
see to it. -/
private theorem Inv.served_or_server (inv : Inv peer) (notStarting : peer.monitor ≠ .starting)
    (notCreating : peer.monitor ≠ .creating) :
    peer.Served ∨ peer.server = .starting ∨ peer.server = .creating := by
  rcases inv.served with served | starting | creating | starting | creating
  · exact .inl served
  · exact .inr (.inl starting)
  · exact .inr (.inr creating)
  · exact absurd starting notStarting
  · exact absurd creating notCreating

/-- A step of the monitor that starts nothing and disturbs no reader. -/
theorem Inv.monitorMoves {after : Peer} (inv : Inv peer) (notStarting : peer.monitor ≠ .starting)
    (notCreating : peer.monitor ≠ .creating) (registered : after.registered = peer.registered)
    (next : peer.nextSock ≤ after.nextSock) (server : after.server = peer.server)
    (upserting : ∀ client, after.monitor = .upserting client → client < after.nextSock)
    (served : peer.Served → after.Served) : Inv after where
  created sock found := Nat.lt_of_lt_of_le (inv.created sock (registered.symm.trans found)) next
  accepted client found := Nat.lt_of_lt_of_le (inv.accepted client (server.symm.trans found)) next
  upserting := upserting
  served := by
    rcases inv.served_or_server notStarting notCreating with before | starting | creating
    · exact .inl (served before)
    · exact .inr (.inl (server.trans starting))
    · exact .inr (.inr (.inl (server.trans creating)))

theorem Inv.monitorStep (inv : Inv peer) {outcome : Bool}
    (orderly : peer.Orderly (.monitor outcome)) :
    Inv (peer.monitorStep outcome) := by
  cases here : peer.monitor with
  | idle =>
    simp only [Peer.monitorStep, here]
    exact inv
  | pinging client =>
    simp only [Peer.monitorStep, here]
    refine inv.monitorMoves (by simp [here]) (by simp [here]) rfl le_rfl rfl ?_ id
    intro other found
    dsimp only at found
    split at found <;> cases found
  | dead client =>
    simp only [Peer.monitorStep, here]
    exact inv.monitorMoves (by simp [here]) (by simp [here]) rfl le_rfl rfl (by simp)
      (fun served => served.disconnect client)
  | stopping =>
    simp only [Peer.monitorStep, here]
    exact inv.monitorMoves (by simp [here]) (by simp [here]) rfl le_rfl rfl (by simp)
      (fun served => (orderly.2 here).served served rfl rfl)
  | connecting =>
    simp only [Peer.monitorStep, here]
    split
    · refine inv.monitorMoves (by simp [here]) (by simp [here]) rfl (Nat.le_succ _) rfl ?_ ?_
      · intro client found
        cases found
        exact Nat.lt_succ_self _
      · intro served
        exact served.of_eq rfl (fun _ found alive => inv.connected_of_newSocket found alive) rfl
    · exact inv.monitorMoves (by simp [here]) (by simp [here]) rfl le_rfl rfl (by simp) id
  | upserting client =>
    obtain ⟨registered, next, server, _⟩ := upsertSocket_fields peer client
    simp only [Peer.monitorStep, here]
    refine ⟨?_, ?_, by simp, .inr (.inr (.inr (.inl rfl)))⟩
    · intro sock found
      cases registered.symm.trans found
      exact next ▸ inv.upserting client here
    · intro other found
      exact next ▸ inv.accepted other (server.symm.trans found)
  | starting =>
    have clean := orderly.1 (.inl here)
    simp only [Peer.monitorStep, here]
    split
    · next present => exact ⟨inv.created, inv.accepted, by simp, .inl (clean.served present)⟩
    · exact ⟨inv.created, inv.accepted, by simp, .inr (.inr (.inr (.inr rfl)))⟩
  | creating =>
    have clean := orderly.1 (.inr here)
    obtain ⟨registered, next, server, _⟩ := createWorker_fields peer
    simp only [Peer.monitorStep, here]
    refine ⟨?_, ?_, by simp, .inl clean.createWorker⟩
    · intro sock found
      exact next ▸ inv.created sock (registered.symm.trans found)
    · intro other found
      exact next ▸ inv.accepted other (server.symm.trans found)

/-- An event outside the two threads. -/
theorem Inv.environment {after : Peer} (inv : Inv peer)
    (registered : after.registered = peer.registered) (next : after.nextSock = peer.nextSock)
    (server : after.server = peer.server)
    (monitor : after.monitor = peer.monitor) (served : peer.Served → after.Served) : Inv after where
  created sock found := next ▸ inv.created sock (registered.symm.trans found)
  accepted client found := next ▸ inv.accepted client (server.symm.trans found)
  upserting client found := next ▸ inv.upserting client (monitor.symm.trans found)
  served := by
    refine inv.served.imp served ?_
    unfold Starting
    rw [server, monitor]
    exact id

/-- A worker whose socket is dead by now was not needed. -/
theorem Served.without_reader {after : Peer} {sock : SockRef} (served : peer.Served)
    (entry : peer.worker = some ⟨some sock, true⟩) (registered : after.registered = peer.registered)
    (connected : ∀ other, after.connected other = true → peer.connected other = true)
    (dead : after.connected sock = false) : after.Served := by
  intro other found alive
  have reader := served other (registered.symm.trans found) (connected other alive)
  cases entry.symm.trans reader
  rw [dead] at alive
  cases alive

theorem Inv.workerExits (inv : Inv peer) {reason : WorkerExit}
    (orderly : peer.Orderly (.workerExits reason)) : Inv (peer.workerExits reason) := by
  unfold Peer.workerExits
  split
  · next sock entry =>
    have closed : (peer.disconnect sock).connected sock = false := by simp [Peer.disconnect]
    cases reason with
    | sawDisconnect =>
      dsimp only
      split
      · exact inv
      · next dead =>
        exact inv.environment rfl rfl rfl rfl fun served =>
          served.without_reader entry rfl (fun _ => id) (by simpa using dead)
    | peerClosed =>
      exact inv.environment rfl rfl rfl rfl fun served =>
        served.without_reader entry rfl (fun _ => connected_of_disconnect) closed
    | badHeader =>
      exact inv.environment rfl rfl rfl rfl fun served =>
        served.without_reader entry rfl (fun _ => connected_of_disconnect) closed
    | failed =>
      exact inv.environment rfl rfl rfl rfl fun served => Unneeded.served orderly served rfl rfl
  · exact inv

theorem Inv.accept (inv : Inv peer) : Inv (peer.step .accept) := by
  simp only [Peer.step]
  split
  · next idle =>
    refine ⟨?_, ?_, ?_, ?_⟩
    · intro sock found
      exact Nat.lt_succ_of_lt (inv.created sock found)
    · intro client found
      cases found
      exact Nat.lt_succ_self _
    · intro client found
      exact Nat.lt_succ_of_lt (inv.upserting client found)
    · rcases inv.served with served | starting | creating | monitor
      · exact .inl (served.of_eq rfl (fun _ found alive =>
          inv.connected_of_newSocket found alive) rfl)
      · rw [idle] at starting
        cases starting
      · rw [idle] at creating
        cases creating
      · exact .inr (.inr (.inr monitor))
  · exact inv

theorem Inv.visit (inv : Inv peer) : Inv (peer.step .visit) := by
  simp only [Peer.step]
  split
  · next idle =>
    refine inv.monitorMoves (by simp [idle]) (by simp [idle]) rfl le_rfl rfl ?_ id
    intro client found
    dsimp only at found
    split at found <;> cases found
  · exact inv

theorem Inv.step (peer : Peer) (action : Action) (inv : Inv peer) (orderly : peer.Orderly action) :
    Inv (peer.step action) := by
  cases action with
  | accept => exact inv.accept
  | server => exact inv.serverStep orderly
  | visit => exact inv.visit
  | monitor outcome => exact inv.monitorStep orderly
  | connectionDies sock =>
    exact inv.environment rfl rfl rfl rfl fun served => served.disconnect sock
  | workerExits reason => exact inv.workerExits orderly

theorem Inv.run {initiates : Bool} (run : Reaches Peer.step Orderly (.initial initiates) peer) :
    Inv peer :=
  run.invariant Inv (.initial initiates) fun peer action inv orderly => inv.step peer action orderly

theorem Inv.served_idle (inv : Inv peer) (idle : peer.Idle) : peer.Served := by
  rcases inv.served with served | starting | creating | starting | creating
  · exact served
  · rw [idle.1] at starting
    cases starting
  · rw [idle.1] at creating
    cases creating
  · rw [idle.2] at starting
    cases starting
  · rw [idle.2] at creating
    cases creating

/-- In every run without the three defects, whenever neither thread is handling the peer its
registered socket, if connected, is read by its running worker. -/
theorem connected_socket_served (initiates : Bool) (peer : Peer)
    (run : Reaches step Orderly (initial initiates) peer) (idle : peer.Idle) : peer.Served :=
  (Inv.run run).served_idle idle

/-- An executable check of the steps of a run in which no worker is left over. -/
def orderlyCheck (peer : Peer) : Action → Bool
  | .server => peer.worker.isNone
  | .monitor _ =>
      peer.worker.all (!·.running) && peer.monitor ≠ .starting && peer.monitor ≠ .creating
  | .workerExits reason => reason ≠ .failed
  | _ => true

private theorem orderlyCheck_sound (peer : Peer) (action : Action)
    (passes : peer.orderlyCheck action = true) : peer.Orderly action := by
  cases action with
  | server =>
    intro _ sock worker _ _ entry
    rw [orderlyCheck, entry] at passes
    cases passes
  | monitor outcome =>
    simp only [orderlyCheck, Bool.and_eq_true, decide_eq_true_eq, Option.all_eq_true] at passes
    obtain ⟨⟨ended, notStarting⟩, notCreating⟩ := passes
    refine ⟨fun starts => absurd starts (not_or.mpr ⟨notStarting, notCreating⟩), ?_⟩
    intro _ sock _ _ entry
    cases ended _ entry
  | workerExits reason =>
    cases reason with
    | failed => cases passes
    | sawDisconnect | peerClosed | badHeader => trivial
  | accept | visit | connectionDies => trivial

/-- The peer after its first connection. -/
def firstConnection : Peer :=
  ((((initial false).step .accept).step .server).step .server).step .server

/-- The peer has connected, closed the connection and connected again after a visit of the
monitor, which has taken the old socket and its worker away. -/
def reconnected : Peer :=
  [.accept, .server, .server, .server, .workerExits .peerClosed, .visit, .monitor false,
    .monitor false, .monitor false, .monitor false, .accept, .server, .server, .server].foldl step
    (initial false)

theorem connected_socket_served_reconnected :
    reconnected.registered = some 1 ∧ reconnected.connected 1 = true ∧ reconnected.Served := by
  have run : Reaches step Orderly (initial false) reconnected :=
    .of_allSteps orderlyCheck_sound _ _ (by decide +kernel)
  exact ⟨by decide +kernel, by decide +kernel,
    connected_socket_served false _ run ⟨by decide +kernel, by decide +kernel⟩⟩

/-- The peer closes the connection and its worker ends; it connects again before the monitor has
come by, and the start of a worker for the new socket is refused. -/
theorem quick_reconnect_unserved :
    let peer := [.workerExits .peerClosed, .accept, .server, .server].foldl step firstConnection
    peer.Idle ∧ peer.registered = some 1 ∧ peer.connected 1 = true ∧
      peer.worker = some ⟨some 0, false⟩ ∧ ¬ peer.Served := by
  intro peer
  have entry : peer.worker = some ⟨some 0, false⟩ := by decide +kernel
  refine ⟨⟨by decide +kernel, by decide +kernel⟩, by decide +kernel, by decide +kernel, entry, ?_⟩
  intro served
  have reader := served 1 (by decide +kernel) (by decide +kernel)
  cases entry.symm.trans reader

end Eroil.Peer
