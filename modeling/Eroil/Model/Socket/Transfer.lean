import Eroil.Lib.ByteMemory
import Eroil.Model.Socket.RecvWorker

/-! # The buffers of `send_all` and `recv_all`

The loops of `socket/linux/linux_tcp_client.cpp` on the memory behind the pointer that they are
given. Results of the operating system are taken as they come; a call that has used up its results
is still waiting for the next one.
-/

namespace Eroil.TcpClient

open Lib

/-- A call of `send_all`: its error code when it has returned, the bytes of its `SockResult`,
`m_connected` and what the operating system has accepted. -/
structure SendRun where
  code : Option SockErr
  bytes : ℕ
  connected : Bool
  stream : List UInt8

/-- The loop of `send_all` with `total` bytes sent. -/
def sendAllFrom (memory : ByteMemory) (ptr size total : ℕ) : List OsSend → SendRun
  | [] => ⟨if total < size then none else some .none, total, true, []⟩
  | result :: results =>
      if total < size then
        match result with
        | .sent count =>
            if count > 0 then
              let run := sendAllFrom memory ptr size (total + count) results
              { run with stream := memory.load (ptr + total) count ++ run.stream }
            else ⟨some .closed, total, false, []⟩
        | .error errno =>
            if errno = .eintr then sendAllFrom memory ptr size total results
            else ⟨some (mapErr errno), total, !isFatalSendErr errno, []⟩
      else ⟨some .none, total, true, []⟩

/-- `TCPClient::send_all` on a buffer. -/
def sendAllBuffer (connected : Bool) (memory : ByteMemory) (ptr size : ℕ) (results : List OsSend) :
    SendRun :=
  if !connected then ⟨some .notConnected, 0, connected, []⟩
  else if size = 0 then ⟨some .sizeZero, 0, connected, []⟩
  else if size > 2 ^ 31 - 1 then ⟨some .sizeTooLarge, 0, connected, []⟩
  else sendAllFrom memory ptr size 0 results

/-- A call of `recv_all`: its error code when it has returned, the bytes of its `SockResult`,
`m_connected` and the memory. -/
structure RecvRun where
  code : Option SockErr
  bytes : ℕ
  connected : Bool
  memory : ByteMemory

/-- The loop of `recv_all` with `total` bytes received. -/
def recvAllFrom (out size total : ℕ) (memory : ByteMemory) : List OsRecv → RecvRun
  | [] => ⟨if total < size then none else some .none, total, true, memory⟩
  | result :: results =>
      if total < size then
        match result with
        | .received bytes =>
            if bytes.length > 0 then
              recvAllFrom out size (total + bytes.length) (memory.store (out + total) bytes) results
            else ⟨some .closed, total, false, memory⟩
        | .error errno =>
            if errno = .eintr then recvAllFrom out size total memory results
            else ⟨some (mapErr errno), total, true, memory⟩
      else ⟨some .none, total, true, memory⟩

/-- `TCPClient::recv_all` into a buffer. -/
def recvAllBuffer (connected : Bool) (memory : ByteMemory) (out size : ℕ) (results : List OsRecv) :
    RecvRun :=
  if !connected then ⟨some .notConnected, 0, connected, memory⟩
  else if size = 0 then ⟨some .sizeZero, 0, connected, memory⟩
  else if size > 2 ^ 31 - 1 then ⟨some .sizeTooLarge, 0, connected, memory⟩
  else recvAllFrom out size 0 memory results

end Eroil.TcpClient
