import Eroil.Model.Types

/-! # Sending on a TCP socket

`socket/linux/linux_tcp_client.cpp` and `socket/linux/linux_map_err.cpp`. The operating system is an
argument: one result for each `::send` that a call makes. Bytes that `::send` accepts are in the
stream for good, whatever the call reports.
-/

namespace Eroil

/-- The values of `errno` that the source names, and any other. -/
inductive Errno where
  | eintr
  | enotsock
  | einval
  | enotconn
  | eisconn
  | eshutdown
  | econnreset
  | eaddrinuse
  | eaddrnotavail
  | eacces
  | econnrefused
  | etimedout
  | ehostunreach
  | enetunreach
  | enobufs
  | emfile
  | enfile
  | ewouldblock
  | econnaborted
  | enetdown
  | enetreset
  | other (code : ℕ)
deriving DecidableEq

/-- `sock::SockErr`, the values that sending can produce. -/
inductive SockErr where
  | none
  | invalidHandle
  | invalidArgument
  | notConnected
  | alreadyConnected
  | closed
  | shutdown
  | addressInUse
  | addressNotAvailable
  | permissionDenied
  | connectionRefused
  | timedOut
  | unreachable
  | resourceExhausted
  | wouldBlock
  | sizeZero
  | sizeTooLarge
  | unknown
deriving DecidableEq

def mapErr : Errno → SockErr
  | .enotsock => .invalidHandle
  | .einval => .invalidArgument
  | .enotconn => .notConnected
  | .eisconn => .alreadyConnected
  | .eshutdown => .shutdown
  | .econnreset => .closed
  | .eaddrinuse => .addressInUse
  | .eaddrnotavail => .addressNotAvailable
  | .eacces => .permissionDenied
  | .econnrefused => .connectionRefused
  | .etimedout => .timedOut
  | .ehostunreach => .unreachable
  | .enetunreach => .unreachable
  | .enobufs => .resourceExhausted
  | .emfile => .resourceExhausted
  | .enfile => .resourceExhausted
  | .ewouldblock => .wouldBlock
  | _ => .unknown

theorem mapErr_ne_none (errno : Errno) : mapErr errno ≠ .none := by
  cases errno <;> simp [mapErr]

def isFatalSendErr : Errno → Bool
  | .econnreset => true
  | .enotconn => true
  | .eshutdown => true
  | .econnaborted => true
  | .ehostunreach => true
  | .enetdown => true
  | .enetreset => true
  | .enetunreach => true
  | _ => false

/-- `map_sock_failures`: the errors after which the connection is kept. -/
def mapSockFailures : SockErr → Bool
  | .none => true
  | .resourceExhausted => true
  | .wouldBlock => true
  | .sizeZero => true
  | .sizeTooLarge => true
  | _ => false

/-- One return of `::send`. A count above what was offered stands for all of it. -/
inductive OsSend where
  | sent (count : ℕ)
  | error (errno : Errno)
deriving DecidableEq

/-- What a call leaves behind: its error code, `m_connected`, and the bytes it put in the stream,
whose number is the byte count of the `SockResult`. -/
structure SendOutcome where
  code : SockErr
  connected : Bool
  wrote : List UInt8
deriving DecidableEq

def SendOutcome.ok (outcome : SendOutcome) : Bool := outcome.code == .none

namespace TcpClient

/-- The checks that `send` and `send_all` start with. -/
def refuses (connected : Bool) (data : List UInt8) : Option SockErr :=
  if !connected then some .notConnected
  else if data.length = 0 then some .sizeZero
  else if data.length > 2 ^ 31 - 1 then some .sizeTooLarge
  else none

/-- `TCPClient::send`: one `::send`, however much it accepts. -/
def send (connected : Bool) (data : List UInt8) (result : OsSend) : SendOutcome :=
  match refuses connected data with
  | some err => ⟨err, connected, []⟩
  | none =>
      match result with
      | .sent count =>
          if count > 0 then ⟨.none, connected, data.take count⟩ else ⟨.closed, false, []⟩
      | .error errno => ⟨mapErr errno, connected && !isFatalSendErr errno, []⟩

/-- The loop of `TCPClient::send_all` over the bytes that are left; `none` unless there is exactly
one result for each `::send`. -/
def sendAllLoop (left : List UInt8) : List OsSend → Option SendOutcome
  | [] => if left = [] then some ⟨.none, true, []⟩ else none
  | result :: results =>
      if left = [] then none
      else
        match result with
        | .sent count =>
            if count > 0 then
              (sendAllLoop (left.drop count) results).map fun outcome =>
                { outcome with wrote := left.take count ++ outcome.wrote }
            else if results = [] then some ⟨.closed, false, []⟩
            else none
        | .error errno =>
            if errno = .eintr then sendAllLoop left results
            else if results = [] then some ⟨mapErr errno, !isFatalSendErr errno, []⟩
            else none

/-- `TCPClient::send_all`. -/
def sendAll (connected : Bool) (data : List UInt8) (results : List OsSend) : Option SendOutcome :=
  match refuses connected data with
  | some err => if results = [] then some ⟨err, connected, []⟩ else none
  | none => sendAllLoop data results

end TcpClient

end Eroil
