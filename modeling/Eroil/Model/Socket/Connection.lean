import Eroil.Model.LabelHeader
import Eroil.Model.Socket.TcpClient

/-! # The sending side of one connection

`workers/send_plan.h` and the senders of `comm/connection_manager.cpp`. Three callers write to a
connection: the connecting side sends its id before it registers the socket, and the monitor's pings
and the worker's labels follow in any order, each call under the socket's send mutex. Padding bytes
of headers, which nobody reads, are zero.
-/

namespace Eroil

open Lib

/-- A label as `Manager::send_label` prepares it. -/
structure LabelMessage where
  label : Label
  recvOffset : ℕ
  payload : List UInt8
deriving DecidableEq

/-- What the three callers write. -/
inductive Frame where
  | connect
  | ping
  | label (message : LabelMessage)
deriving DecidableEq

def Frame.bytes (myId : NodeId) : Frame → List UInt8
  | .connect => LabelHeader.bytes ⟨magicNum, version, myId, LabelFlag.connect.value, 0, 0, 0⟩
  | .ping => LabelHeader.bytes ⟨magicNum, version, myId, LabelFlag.ping.value, 0, 0, 0⟩
  | .label message =>
      LabelHeader.bytes ⟨magicNum, version, myId, LabelFlag.data.value, message.label,
        wrap32 message.payload.length, wrap32 message.recvOffset⟩ ++ message.payload

/-- The connecting side owns the socket alone until its id is sent; a socket whose id could not be
sent is dropped. Accepted sockets are registered from the start. -/
inductive Phase where
  | opening
  | registered
  | dropped
deriving DecidableEq

/-- A call that has returned: the frame it was given, the bytes it wrote and whether it reported
success. -/
structure SendCall where
  frame : Frame
  wrote : List UInt8
  success : Bool
deriving DecidableEq

/-- One connection with everything written to it; `calls` is a record only. -/
structure Connection where
  myId : NodeId
  connecting : Bool
  phase : Phase
  connected : Bool
  written : List UInt8
  calls : List SendCall

namespace Connection

/-- A socket that was just connected to a peer. -/
def opened (myId : NodeId) : Connection := ⟨myId, true, .opening, true, [], []⟩

/-- A socket that was accepted from a peer and registered. -/
def accepted (myId : NodeId) : Connection := ⟨myId, false, .registered, true, [], []⟩

/-- The effect of a call that has returned. -/
def record (conn : Connection) (frame : Frame) (outcome : SendOutcome) (success : Bool) :
    Connection :=
  { conn with
    connected := outcome.connected
    written := conn.written ++ outcome.wrote
    calls := conn.calls ++ [⟨frame, outcome.wrote, success⟩] }

/-- `ConnectionManager::send_id` as `connect_to_remote_peer` calls it: success registers the
socket. -/
def sendId (conn : Connection) (results : List OsSend) : Connection :=
  if conn.phase ≠ .opening then conn
  else
    match TcpClient.sendAll conn.connected (Frame.connect.bytes conn.myId) results with
    | none => conn
    | some outcome =>
        let success := mapSockFailures outcome.code
        { conn.record .connect outcome success with
          phase := if success then .registered else .dropped }

/-- `ConnectionManager::send_ping` on a registered socket. -/
def sendPing (conn : Connection) (results : List OsSend) : Connection :=
  if conn.phase ≠ .registered then conn
  else
    match TcpClient.sendAll conn.connected (Frame.ping.bytes conn.myId) results with
    | none => conn
    | some outcome => conn.record .ping outcome (mapSockFailures outcome.code)

/-- `TcpSendPlan::send_one` on a registered socket. -/
def sendOne (conn : Connection) (message : LabelMessage) (result : OsSend) : Connection :=
  if conn.phase ≠ .registered then conn
  else if !conn.connected then { conn with calls := conn.calls ++ [⟨.label message, [], false⟩] }
  else
    let outcome := TcpClient.send conn.connected ((Frame.label message).bytes conn.myId) result
    conn.record (.label message) outcome outcome.ok

/-- `TCPSocket::disconnect`, from the monitor, the receive worker or a replacement. -/
def disconnect (conn : Connection) : Connection := { conn with connected := false }

inductive Action where
  | sendId (results : List OsSend)
  | sendPing (results : List OsSend)
  | sendOne (message : LabelMessage) (result : OsSend)
  | disconnect

def step (conn : Connection) : Action → Connection
  | .sendId results => conn.sendId results
  | .sendPing results => conn.sendPing results
  | .sendOne message result => conn.sendOne message result
  | .disconnect => conn.disconnect

end Connection

end Eroil
