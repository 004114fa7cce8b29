import Mathlib.Data.List.AList
import Eroil.Model.Address

/-! # The configuration of the manager

`config/config.cpp` and the part of `init_manager` (`root.cpp`) that reads the two files of a node.
A file is the text that the source reads line by line; `none` where `std::stoi` throws.
-/

namespace Eroil.Cfg

open Addr (getlines stoi)

abbrev KeyValues := AList (fun _ : List Char => List Char)

/-- The loop body of `parse_kv_file`. -/
def parseKvLine (out : KeyValues) (line : List Char) : KeyValues :=
  if line = [] ∨ line.head? = some '#' then out
  else
    match line.idxOf? '=' with
    | none => out
    | some pos => out.insert (line.take pos) (line.drop (pos + 1))

/-- `parse_kv_file`; a file that cannot be opened sets nothing. -/
def parseKvFile : Option (List Char) → KeyValues
  | none => ∅
  | some text => (getlines '\n' text).foldl parseKvLine ∅

/-- `UdpMcastConfig`. -/
structure UdpMcastConfig where
  groupIp : List Char
  port : UInt16
  bindIp : List Char
  ttl : Int32
  loopback : Bool
  reuseAddr : Bool
deriving DecidableEq

def UdpMcastConfig.default : UdpMcastConfig where
  groupIp := "239.255.0.1".toList
  port := 30001
  bindIp := "0.0.0.0".toList
  ttl := 1
  loopback := true
  reuseAddr := true

/-- `ManagerConfig`. -/
structure ManagerConfig where
  id : NodeId
  mode : ManagerMode
  mcastCfg : UdpMcastConfig
deriving DecidableEq

def shmOnlyText : List Char := "TestMode_Local_ShmOnly".toList
def socketOnlyText : List Char := "TestMode_Local_SocketOnly".toList
def simNetworkText : List Char := "TestMode_Sim_Network".toList

/-- What an assignment from a `const char*` keeps. -/
def cStr (text : List Char) : List Char := text.takeWhile fun c => c ≠ Char.ofNat 0

namespace KeyValues

variable (kv : KeyValues)

def mode : ManagerMode :=
  match kv.lookup "mode".toList with
  | none => .normal
  | some text =>
      if text = shmOnlyText then .shmOnly
      else if text = socketOnlyText then .socketOnly
      else if text = simNetworkText then .simNetwork
      else .normal

def text (key : String) (default : List Char) : List Char :=
  match kv.lookup key.toList with
  | none => default
  | some text => cStr text

/-- A number that is cast to the type of the member. -/
def number {α : Type} (key : String) (cast : ℤ → α) (default : α) : Option α :=
  match kv.lookup key.toList with
  | none => some default
  | some text => (stoi text).map cast

def flag (key : String) (default : Bool) : Bool :=
  match kv.lookup key.toList with
  | none => default
  | some text => text = "true".toList

end KeyValues

/-- `get_manager_cfg`. -/
def getManagerCfg (file : Option (List Char)) (id : NodeId) : Option ManagerConfig :=
  let kv := parseKvFile file
  let default := UdpMcastConfig.default
  (kv.number "mcast_port" UInt16.ofInt default.port).bind fun port =>
    (kv.number "mcast_ttl" Int32.ofInt default.ttl).map fun ttl =>
      { id := id
        mode := kv.mode
        mcastCfg :=
          { groupIp := kv.text "mcast_group_ip" default.groupIp
            port := port
            bindIp := kv.text "mcast_bind_ip" default.bindIp
            ttl := ttl
            loopback := kv.flag "mcast_loopback" default.loopback
            reuseAddr := kv.flag "mcast_reuse_addr" default.reuseAddr } }

/-- `init_manager` up to the manager: the configuration, the address book and whether it was
filled. -/
def initManager (config peers : Option (List Char)) (id : NodeId) :
    Option (ManagerConfig × Addr.Book × Bool) :=
  (getManagerCfg config id).bind fun cfg =>
    (Addr.Book.empty.initManager peers id cfg.mode).map fun book => (cfg, book)

end Eroil.Cfg
