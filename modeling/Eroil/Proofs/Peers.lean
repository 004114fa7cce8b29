import Eroil.Model.Node

/-! # How nodes that read the same list reach each other

Every node classifies the entries of the list on its own. `initManager_eq` gives the book of a node
in closed form: the kind of an entry is `peerKind` of the node's own entry and that entry. What two
nodes decide about each other is compared through it.
-/

namespace Eroil.Addr

namespace Book

variable {book listed : Book} {file : Option (List Char)} {mode : ManagerMode} {id : NodeId}
  {self addr : NodeAddress}

/-- The kind that a node with entry `self` gives to an entry once its mode has been applied. -/
def peerKind (mode : ManagerMode) (self addr : NodeAddress) : RouteKind :=
  if addr.id = self.id then .self
  else
    match mode with
    | .normal => if addr.ip = self.ip then .shm else .socket
    | .shmOnly => .shm
    | .socketOnly => .socket
    | .simNetwork =>
        if self.id % 2 = 0 then
          if addr.id % 2 = 0 then .shm else .socket
        else
          if addr.id % 2 = 0 then .socket else .shm

private theorem peerKind_cases (mode : ManagerMode) (distinct : addr.id ≠ self.id) :
    peerKind mode self addr = .shm ∨ peerKind mode self addr = .socket := by
  simp only [peerKind, if_neg distinct]
  cases mode with
  | normal => exact ite_eq_or_eq ..
  | shmOnly => exact .inl rfl
  | socketOnly => exact .inr rfl
  | simNetwork =>
    dsimp only
    split_ifs <;> simp

/-- The decision of one node about the other is that of the other about it. -/
private theorem peerKind_comm (mode : ManagerMode) (self addr : NodeAddress) :
    peerKind mode self addr = peerKind mode addr self := by
  by_cases same : addr.id = self.id
  · simp only [peerKind, if_pos same, if_pos same.symm]
  · simp only [peerKind, if_neg same, if_neg fun other => same (Eq.symm other)]
    cases mode with
    | normal => simp only [eq_comm]
    | shmOnly => rfl
    | socketOnly => rfl
    | simNetwork =>
      dsimp only
      split_ifs <;> rfl

@[simp] theorem ids_setKinds (book : Book) (kind : NodeAddress → RouteKind) :
    (book.setKinds kind).ids = book.ids := by
  simp only [ids, setKinds, List.map_map, Function.comp_def]

theorem find?_setKinds (book : Book) (kind : NodeAddress → RouteKind) (id : NodeId) :
    (book.setKinds kind).find? id = (book.find? id).map fun addr =>
      { addr with kind := kind addr } := by
  simp only [find?, setKinds, List.find?_map, Function.comp_def]

theorem find?_id (found : book.find? id = some addr) : addr.id = id := by
  simpa using List.find?_some found

theorem find?_mem (found : book.find? id = some addr) : addr ∈ book.entries :=
  List.mem_of_find?_eq_some found

theorem find?_of_mem (mem : addr ∈ book.entries) : book.find? addr.id = some addr := by
  cases found : book.find? addr.id with
  | none =>
    rw [find?, List.find?_eq_none] at found
    simpa using found addr mem
  | some other =>
    rw [List.inj_on_of_nodup_map book.distinct (find?_mem found) mem (find?_id found)]

theorem mem_ids : id ∈ book.ids ↔ ∃ addr, book.find? id = some addr := by
  simp only [ids, find?, ← Option.isSome_iff_exists, List.find?_isSome, decide_eq_true_eq,
    List.mem_map]

/-- The first entry of the node's own kind is its own entry. -/
private theorem find_self (found : listed.find? id = some self) :
    ((listed.setKinds (routeKind self)).entries.find? fun addr => addr.kind = .self) =
      some { self with kind := .self } := by
  have own (addr : NodeAddress) : routeKind self addr = .self ↔ addr.id = id := by
    rw [← find?_id found, routeKind]
    split_ifs <;> simp_all
  have search := found
  rw [find?] at search
  simp only [setKinds, List.find?_map, Function.comp_def, own, search, Option.map_some,
    Option.some.injEq]
  rw [(own self).mpr (find?_id found)]

theorem overrideKinds_eq (found : listed.find? id = some self)
    (kind : NodeAddress → NodeAddress → RouteKind) :
    (listed.setKinds (routeKind self)).overrideKinds kind =
      listed.setKinds fun addr =>
        if addr.id = self.id then .self
        else kind { self with kind := .self } { addr with kind := routeKind self addr } := by
  rw [overrideKinds, find_self found]
  simp only [setKinds, List.map_map, Function.comp_def, mk.injEq, List.map_inj_left,
    NodeAddress.mk.injEq, and_true]
  intro addr mem
  by_cases same : addr.id = self.id
  · simp only [same, if_true, routeKind]
  · simp only [same, if_false]

/-- The book of a node that the list contains, after the override of its mode. -/
theorem initManager_eq (rows : empty.addRows (parseCsvFile file) = some listed)
    (found : listed.find? id = some self) :
    initManager empty file id mode = some (listed.setKinds (peerKind mode self), true) := by
  have nonempty : parseCsvFile file ≠ [] := by
    intro none
    rw [none] at rows
    cases rows
    cases found
  have init : initAddressBook empty file id = some (listed.setKinds (routeKind self), true) := by
    rw [initAddressBook, if_neg nonempty, rows, Option.map_some]
    simp only [found]
  rw [initManager, init, Option.map_some]
  cases mode with
  | normal => rfl
  | shmOnly => simp only [allShmAddressBook, overrideKinds_eq found]; rfl
  | socketOnly => simp only [allSocketAddressBook, overrideKinds_eq found]; rfl
  | simNetwork => simp only [testNetworkAddressBook, overrideKinds_eq found]; rfl

end Book

/-! ## The peer sets of a node -/

theorem foldl_push (myId : NodeId) (sets : PeerSet) (entries : List NodeAddress) :
    entries.foldl (PeerSet.push myId) sets =
      { localPeers := sets.localPeers ++ entries.filter fun addr =>
        addr.kind = .self ∨ addr.kind = .shm
        remote := sets.remote ++ entries.filter fun addr => addr.kind = .socket
        remoteConnectTo := sets.remoteConnectTo ++
          entries.filter fun addr => addr.kind = .socket ∧ addr.id < myId } := by
  induction entries generalizing sets with
  | nil => simp
  | cons addr rest ih =>
    rw [List.foldl_cons, ih]
    by_cases lower : addr.id < myId <;> cases kind : addr.kind <;>
      simp [PeerSet.push, kind, lower]

variable {listed : Book} {file : Option (List Char)} {mode : ManagerMode} {self : NodeAddress}
  {id myId : NodeId}

/-- A node sorts every entry whose kind is known into one of the two lists. -/
private theorem getPeerSet_count (book : Book) (known : ∀ addr ∈ book.entries, addr.kind ≠ .none)
    (mem : id ∈ book.ids) :
    ((book.getPeerSet myId).localPeers.map NodeAddress.id).count id +
      ((book.getPeerSet myId).remote.map NodeAddress.id).count id = 1 := by
  rw [Book.getPeerSet, foldl_push]
  simp only [PeerSet.empty, List.nil_append]
  have rest : (book.entries.filter fun addr => addr.kind = .socket) =
      book.entries.filter fun addr => !decide (addr.kind = .self ∨ addr.kind = .shm) := by
    refine List.filter_congr fun addr mem => ?_
    have kind := known addr mem
    cases other : addr.kind <;> simp_all
  have parts := (List.filter_append_perm
    (fun addr => decide (addr.kind = .self ∨ addr.kind = .shm)) book.entries).map NodeAddress.id
  rw [rest, ← List.count_append, ← List.map_append, parts.count_eq]
  exact List.count_eq_one_of_mem book.distinct mem

/-- A node opens a connection to a peer: the peer is listed for it and passes the id test. -/
def Book.Dials (book : Book) (myId id : NodeId) : Prop :=
  ∃ peer ∈ (book.getPeerSet myId).remoteConnectTo, peer.id = id ∧ mayConnect myId peer

theorem Book.dials_iff (book : Book) :
    book.Dials myId id ↔ (book.getAddress id).kind = .socket ∧ id < myId := by
  simp only [Dials, getPeerSet, foldl_push, PeerSet.empty, List.nil_append, List.mem_filter,
    decide_eq_true_eq, mayConnect, Bool.not_eq_true', decide_eq_false_iff_not, ge_iff_le,
    Int32.not_le]
  constructor
  · rintro ⟨peer, ⟨mem, kind, lower⟩, rfl, -⟩
    rw [getAddress, find?_of_mem mem]
    exact ⟨kind, lower⟩
  · rintro ⟨kind, lower⟩
    cases found : book.find? id with
    | none => simp [getAddress, found] at kind
    | some peer =>
      simp only [getAddress, found, Option.getD_some] at kind
      obtain rfl := find?_id found
      exact ⟨peer, ⟨find?_mem found, kind, lower⟩, rfl, lower⟩

theorem Book.getAddress_kind {addr : NodeAddress} (found : listed.find? id = some addr) :
    ((listed.setKinds (peerKind mode self)).getAddress id).kind = peerKind mode self addr := by
  rw [getAddress, find?_setKinds, found, Option.map_some, Option.getD_some]

/-- The kinds under which two nodes of the list keep each other agree. -/
private theorem Book.toAddressBook_kind_comm {selfA selfB : NodeAddress} {a b : NodeId}
    (foundA : listed.find? a = some selfA) (foundB : listed.find? b = some selfB) :
    (listed.setKinds (peerKind mode selfA)).toAddressBook.kind b =
      (listed.setKinds (peerKind mode selfB)).toAddressBook.kind a :=
  (getAddress_kind foundB).trans ((peerKind_comm ..).trans (getAddress_kind foundA).symm)

/-- Every node of the list fills its book, sorts every node of the list into one of its lists and
agrees with every other node on how the two reach each other; of two nodes that use a socket one
opens the connection. -/
theorem peers_agree (rows : Book.empty.addRows (parseCsvFile file) = some listed) {a : NodeId}
    (listedA : a ∈ listed.ids) :
    ∃ bookA, Book.empty.initManager file a mode = some (bookA, true) ∧
      (∀ id ∈ listed.ids,
        ((bookA.getPeerSet a).localPeers.map NodeAddress.id).count id +
          ((bookA.getPeerSet a).remote.map NodeAddress.id).count id = 1) ∧
      ∀ b ∈ listed.ids, b ≠ a →
        ∃ bookB, Book.empty.initManager file b mode = some (bookB, true) ∧
          ((bookA.getAddress b).kind = .shm ↔ (bookB.getAddress a).kind = .shm) ∧
          ((bookA.getAddress b).kind = .socket ↔ (bookB.getAddress a).kind = .socket) ∧
          ((bookA.getAddress b).kind = .socket → Xor (bookA.Dials a b) (bookB.Dials b a)) := by
  obtain ⟨selfA, foundA⟩ := Book.mem_ids.mp listedA
  refine ⟨_, Book.initManager_eq rows foundA, ?_, ?_⟩
  · intro id mem
    refine getPeerSet_count _ ?_ (by rwa [Book.ids_setKinds])
    intro addr set
    obtain ⟨entry, _, rfl⟩ := List.mem_map.mp set
    by_cases same : entry.id = selfA.id
    · simp [Book.peerKind, same]
    · rcases Book.peerKind_cases mode same with kind | kind <;> simp [kind]
  · intro b listedB distinct
    obtain ⟨selfB, foundB⟩ := Book.mem_ids.mp listedB
    have kinds : ((listed.setKinds (Book.peerKind mode selfA)).getAddress b).kind =
      ((listed.setKinds (Book.peerKind mode selfB)).getAddress a).kind :=
        Book.toAddressBook_kind_comm foundA foundB
    refine ⟨_, Book.initManager_eq rows foundB, ?_, ?_, ?_⟩
    · rw [kinds]
    · rw [kinds]
    · intro socket
      rw [Book.dials_iff, Book.dials_iff, ← kinds]
      rcases Int32.lt_or_lt_of_ne distinct with lower | higher
      · exact .inl ⟨⟨socket, lower⟩, fun other => Int32.lt_asymm lower other.2⟩
      · exact .inr ⟨⟨socket, higher⟩, fun other => Int32.lt_asymm higher other.2⟩

/-- A list of two nodes on different hosts. -/
def twoNodes : List Char := ['1', ',', 'x', ',', '5', '\n', '2', ',', 'y', ',', '6']

theorem peers_agree_twoNodes :
    ∃ bookA, Book.empty.initManager (some twoNodes) 1 .normal = some (bookA, true) ∧
      (bookA.getAddress 2).kind = .socket ∧
      ∃ bookB, Book.empty.initManager (some twoNodes) 2 .normal = some (bookB, true) ∧
        Xor (bookA.Dials 1 2) (bookB.Dials 2 1) := by
  obtain ⟨bookA, atA, -, others⟩ := @peers_agree _ _ .normal
    (show Book.empty.addRows (parseCsvFile (some twoNodes)) = some _ from rfl) 1 (by decide)
  obtain ⟨bookB, atB, -, -, dials⟩ := others 2 (by decide) (by decide)
  have kind : (bookA.getAddress 2).kind = .socket := by
    have books := congrArg (Option.map fun result => (result.1.getAddress 2).kind) atA
    exact Option.some.inj (books.symm.trans rfl)
  exact ⟨bookA, atA, kind, bookB, atB, dials kind⟩

end Eroil.Addr
