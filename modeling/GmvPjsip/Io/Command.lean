import GmvPjsip.Commands.Payload

/-!
# The commands of the socket layer

The socket layer puts `RuntimeIoCommand`s into a channel. `SipRuntime` takes them out in a poll and
submits each to the shim, after checks of its own.
-/

namespace GmvPjsip.Io

open GmvPjsip.Auth
open GmvPjsip.Commands

/-- Source: `transport.rs`, `SipTransportProtocol` -/
inductive SipTransportProtocol
  | udp
  | tcp
  | tls
  deriving DecidableEq, Repr

/-- Source: `runtime.rs`, `transport_id` -/
def transportId : SipTransportProtocol → SipTransport
  | .udp => .udp
  | .tcp => .tcp
  | .tls => .unknown

/-- A `SocketAddr`: its IP address as text, and its port. -/
structure SocketAddr where
  isIpv4 : Bool
  ip : Bytes
  port : ℕ
  deriving DecidableEq, Repr

/-- A command of the socket layer. The result of a send is a number of bytes or a status.
Source: `io.rs`, `RuntimeIoCommand` -/
inductive RuntimeIoCommand
  | receive (associationId : ℕ) (protocol : SipTransportProtocol)
      (localAddr remoteAddr : SocketAddr) (data : Bytes)
  | completeSend (sendId : ℕ) (result : Except Int ℕ)
  | transportClosed (associationId : ℕ) (protocol : SipTransportProtocol)
      (localAddr remoteAddr : SocketAddr) (status : Int)

/-- The packet handed to the shim, unless it is refused.
Source: `runtime.rs`, `SipRuntime::receive_packet` -/
def receivePacket (stopped : Bool) (associationId : ℕ) (protocol : SipTransportProtocol)
    (localAddr remoteAddr : SocketAddr) (data : Bytes) : Option Submission :=
  if stopped ∨ data = [] ∨ !localAddr.isIpv4 ∨ !remoteAddr.isIpv4 ∨
      protocol ≠ .udp ∧ associationId = 0 then none
  else some (.receivePacket ⟨88, abiVersion, associationId, transportId protocol, .bytes data,
    .bytes localAddr.ip, localAddr.port, .bytes remoteAddr.ip, remoteAddr.port⟩)

/-- `status.abs().max(1)` on an `i32`, whose least value is its own absolute value. -/
def errorMagnitude (status : Int) : Int :=
  if status = -2147483648 then 1 else max (status.natAbs : Int) 1

/-- The byte count of a completion, which is negative for an error. -/
def sentBytes : Except Int ℕ → Option Int
  | .ok bytes => if bytes ≤ 9223372036854775807 then some bytes else none
  | .error status => some (-errorMagnitude status)

/-- Source: `runtime.rs`, `SipRuntime::complete_send` -/
def completeSend (stopped : Bool) (sendId : ℕ) (result : Except Int ℕ) : Option Submission :=
  if stopped ∨ sendId = 0 then none
  else (sentBytes result).map fun bytes => .completeSend ⟨24, abiVersion, sendId, bytes⟩

/-- An `i32` as a status. -/
def statusOf (status : Int) : PjStatus := if status = 0 then .success else .other status

/-- Source: `runtime.rs`, `SipRuntime::close_transport` -/
def closeTransport (stopped : Bool) (associationId : ℕ) (protocol : SipTransportProtocol)
    (status : Int) : Option Submission :=
  if stopped ∨ associationId = 0 ∨ protocol ≠ .tcp then none
  else some (.closeTransport associationId (transportId protocol) (statusOf status))

/-- What a command of the socket layer submits to the shim.
Source: `runtime.rs`, `SipRuntime::drain_io_commands` -/
def RuntimeIoCommand.submission (stopped : Bool) : RuntimeIoCommand → Option Submission
  | .receive associationId protocol localAddr remoteAddr data =>
    Io.receivePacket stopped associationId protocol localAddr remoteAddr data
  | .completeSend sendId result => Io.completeSend stopped sendId result
  | .transportClosed associationId protocol _ _ status =>
    Io.closeTransport stopped associationId protocol status

end GmvPjsip.Io
