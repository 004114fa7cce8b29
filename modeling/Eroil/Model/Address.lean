import Mathlib.Data.List.Nodup
import Eroil.Model.Types

/-! # The address book of a node

`address/address.cpp` and the part of `init_manager` (`root.cpp`) that fills and adjusts the book.
Every node reads the same list of peers and decides for itself how it reaches each of them. The
book is a hash map whose keys are the ids of the stored addresses; here it is the list of these
addresses, and the order in which the source iterates over them is that of the list.
-/

namespace Eroil

inductive RouteKind where
  | none
  | self
  | shm
  | socket
deriving DecidableEq

inductive ManagerMode where
  | normal
  | shmOnly
  | socketOnly
  | simNetwork
deriving DecidableEq

namespace Addr

structure NodeAddress where
  kind : RouteKind
  id : NodeId
  ip : List Char
  port : UInt16
deriving DecidableEq

/-- `std::getline` up to the end of the stream: nothing follows a last delimiter. -/
def getlines (delim : Char) (text : List Char) : List (List Char) :=
  let pieces := text.splitOn delim
  if pieces.getLast? = some [] then pieces.dropLast else pieces

/-- `parse_csv_file`; a file that cannot be opened has no rows. -/
def parseCsvFile : Option (List Char) → List (List (List Char))
  | none => []
  | some text =>
      ((getlines '\n' text).filter fun line => line ≠ [] ∧ line.head? ≠ some '#').map (getlines ',')

def isSpace (c : Char) : Bool := c = ' ' ∨ (9 ≤ c.toNat ∧ c.toNat ≤ 13)

/-- The sign that `strtol` accepts before the digits. -/
def takeSign : List Char → Bool × List Char
  | '-' :: rest => (true, rest)
  | '+' :: rest => (false, rest)
  | rest => (false, rest)

/-- `std::stoi`; `none` where it throws. -/
def stoi (text : List Char) : Option ℤ :=
  let (negative, rest) := takeSign (text.dropWhile isSpace)
  let digits := rest.takeWhile Char.isDigit
  if digits = [] then none
  else
    let magnitude : ℤ := digits.foldl (fun value c => 10 * value + (c.toNat - '0'.toNat : ℕ)) 0
    let value := if negative then -magnitude else magnitude
    if -2 ^ 31 ≤ value ∧ value < 2 ^ 31 then some value else none

/-- `address_book`: the ids of its entries differ, and ids up to `INVALID_NODE` are skipped. -/
structure Book where
  entries : List NodeAddress
  distinct : (entries.map NodeAddress.id).Nodup
  valid : ∀ addr ∈ entries, invalidNode < addr.id

namespace Book

def empty : Book := ⟨[], List.nodup_nil, fun _ mem => absurd mem List.not_mem_nil⟩

def ids (book : Book) : List NodeId := book.entries.map NodeAddress.id

def find? (book : Book) (id : NodeId) : Option NodeAddress :=
  book.entries.find? fun addr => addr.id = id

def emplace (book : Book) (addr : NodeAddress) (valid : invalidNode < addr.id)
    (fresh : addr.id ∉ book.ids) : Book where
  entries := book.entries ++ [addr]
  distinct := by
    rw [List.map_append, List.map_singleton, List.nodup_append]
    refine ⟨book.distinct, List.nodup_singleton _, ?_⟩
    rintro id listed _ (_ | ⟨_, ⟨⟩⟩) rfl
    exact fresh listed
  valid := by
    intro other mem
    rcases List.mem_append.mp mem with mem | mem
    · exact book.valid other mem
    · rw [List.mem_singleton.mp mem]
      exact valid

/-- Decide the kind of every entry anew. -/
def setKinds (book : Book) (kind : NodeAddress → RouteKind) : Book where
  entries := book.entries.map fun addr => { addr with kind := kind addr }
  distinct := by
    rw [List.map_map]
    exact book.distinct
  valid := by
    intro other mem
    obtain ⟨addr, old, rfl⟩ := List.mem_map.mp mem
    exact book.valid addr old

/-- One row of the list; `none` where the source throws or reads a column that is not there. -/
def addRow (book : Book) (row : List (List Char)) : Option Book :=
  (row[0]?.bind stoi).bind fun value =>
    let id := Int32.ofInt value
    if valid : invalidNode < id then
      row[1]?.bind fun ip =>
        (row[2]?.bind stoi).bind fun value =>
          let port := Int16.ofInt value
          if port < 0 then some book
          else if fresh : id ∉ book.ids then
            some (book.emplace ⟨.none, id, ip, port.toUInt16⟩ valid fresh)
          else some book
    else some book

def addRows (book : Book) (rows : List (List (List Char))) : Option Book :=
  rows.foldlM addRow book

/-- How `init_address_book` reaches an entry from `self`. -/
def routeKind (self addr : NodeAddress) : RouteKind :=
  if addr.id = self.id then .self
  else if addr.ip = self.ip then .shm
  else .socket

/-- `init_address_book` with its return value; `none` where it throws. -/
def initAddressBook (book : Book) (file : Option (List Char)) (myId : NodeId) :
    Option (Book × Bool) :=
  if parseCsvFile file = [] then some (book, false)
  else
    (book.addRows (parseCsvFile file)).map fun book =>
      match book.find? myId with
      | none => (book, false)
      | some self => (book.setKinds (routeKind self), true)

def getAddress (book : Book) (id : NodeId) : NodeAddress :=
  (book.find? id).getD ⟨.none, id, [], 0⟩

/-- What the test modes share: entries other than the node's own get the kind of the mode. -/
def overrideKinds (book : Book) (kind : NodeAddress → NodeAddress → RouteKind) : Book :=
  match book.entries.find? fun addr => addr.kind = .self with
  | none => book
  | some self => book.setKinds fun addr => if addr.id = self.id then addr.kind else kind self addr

def allShmAddressBook (book : Book) : Book := book.overrideKinds fun _ _ => .shm

def allSocketAddressBook (book : Book) : Book := book.overrideKinds fun _ _ => .socket

def testNetworkAddressBook (book : Book) : Book :=
  book.overrideKinds fun self addr =>
    if self.id % 2 = 0 then
      if addr.id % 2 = 0 then .shm else .socket
    else
      if addr.id % 2 = 0 then .socket else .shm

/-- The address book that `init_manager` hands to the manager. -/
def initManager (book : Book) (file : Option (List Char)) (id : NodeId) (mode : ManagerMode) :
    Option (Book × Bool) :=
  (book.initAddressBook file id).map fun (book, found) =>
    if !found then (book, false)
    else
      match mode with
      | .normal => (book, true)
      | .shmOnly => (book.allShmAddressBook, true)
      | .socketOnly => (book.allSocketAddressBook, true)
      | .simNetwork => (book.testNetworkAddressBook, true)

end Book

structure PeerSet where
  localPeers : List NodeAddress
  remote : List NodeAddress
  remoteConnectTo : List NodeAddress

def PeerSet.empty : PeerSet := ⟨[], [], []⟩

/-- The loop body of `get_peer_set`. -/
def PeerSet.push (myId : NodeId) (sets : PeerSet) (info : NodeAddress) : PeerSet :=
  match info.kind with
  | .self => { sets with localPeers := sets.localPeers ++ [info] }
  | .shm => { sets with localPeers := sets.localPeers ++ [info] }
  | .socket =>
      { sets with
        remote := sets.remote ++ [info]
        remoteConnectTo :=
          if info.id < myId then sets.remoteConnectTo ++ [info] else sets.remoteConnectTo }
  | .none => sets

def Book.getPeerSet (book : Book) (myId : NodeId) : PeerSet :=
  book.entries.foldl (PeerSet.push myId) .empty

/-- The id test of `connect_to_remote_peer`: peers with larger ids connect to this node. -/
def mayConnect (myId : NodeId) (peer : NodeAddress) : Bool := !decide (peer.id ≥ myId)

end Addr

end Eroil
