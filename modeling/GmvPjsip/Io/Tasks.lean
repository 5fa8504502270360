import GmvPjsip.Framer.Message
import GmvPjsip.Io.Command

/-!
# The tasks of the socket layer

A dispatcher takes messages from the transmit queue and hands them to the UDP socket or to the
writer of a TCP connection; every connection has a reader and a writer of its own. All of them
report to one bounded command channel with `try_send`, and ignore what it returns.

* `Tasks` is the state of all tasks and channels, and `runTasks` what a schedule makes of it: each
  `Turn` is what one task does between two points at which another may run.
* `Books` is the part of the state that says where a message is and what was reported.
-/

namespace GmvPjsip.Io

open GmvPjsip.Auth
open GmvPjsip.Framer

/-! ## The code -/

/-- The part of a `SipTransmit` that the tasks read.
Source: `runtime.rs`, `SipTransmit` -/
structure SipTransmit where
  sendId : ℕ
  associationId : ℕ
  protocol : SipTransportProtocol
  data : Bytes
  deriving DecidableEq, Repr

/-- The reader of a connection: waiting for bytes, taking messages off its buffer, or at its end.
Source: `io.rs`, `handle_tcp_stream` -/
inductive Reader
  | waiting (buffer : Bytes)
  | extracting (buffer : Bytes)
  | ended
  deriving DecidableEq, Repr

/-- The writer of a connection with the requests in its channel: waiting for a request, writing one,
or at its end.
Source: `io.rs`, `handle_tcp_stream` -/
inductive Writer
  | idle (requests : List SipTransmit)
  | writing (request : SipTransmit) (requests : List SipTransmit)
  | ended
  deriving DecidableEq, Repr

/-- The tasks of a connection: not run yet, given up because the stream had no local address, or a
reader and a writer.
Source: `io.rs`, `handle_tcp_stream` -/
inductive Stream
  | spawned
  | aborted
  | running (localAddr : SocketAddr) (reader : Reader) (writer : Writer)
  deriving DecidableEq, Repr

/-- An accepted connection. -/
structure Connection where
  associationId : ℕ
  remoteAddr : SocketAddr
  stream : Stream
  deriving DecidableEq, Repr

/-- Who put a command into the channel. A connection is its number. -/
inductive Source
  | dispatcher
  | udpReader
  | reader (connection : ℕ)
  | writer (connection : ℕ)
  deriving DecidableEq, Repr

/-- A `try_send` into the command channel, and whether there was room. -/
structure Attempt where
  source : Source
  command : RuntimeIoCommand
  accepted : Bool

/-- What the tasks hold and what they did. `inFlight` is the message whose `send_to` the dispatcher
waits for, and `capacity` that of the command channel. `taken`, `dropped` and `log` are written and
never read: the messages that were taken from the transmit queue, the requests that were dropped with
the channel of a writer, and the attempts to report. -/
structure Books where
  capacity : ℕ
  inFlight : Option SipTransmit
  nextAssociationId : ℕ
  connections : List Connection
  taken : List SipTransmit
  dropped : List SipTransmit
  log : List Attempt

/-- The tasks and their channels. `writers` says which connection's writer an association has. -/
structure Tasks extends Books where
  udp : Bool
  transmits : List SipTransmit
  writers : ℕ → Option ℕ
  channel : List RuntimeIoCommand

/-- The tasks at the start.
Source: `io.rs`, `run_io` -/
def Tasks.init (capacity : ℕ) (udp : Bool) : Tasks where
  capacity := capacity
  udp := udp
  transmits := []
  inFlight := none
  nextAssociationId := 1
  connections := []
  writers := fun _ => none
  channel := []
  taken := []
  dropped := []
  log := []

/-- `let _ = commands.try_send(command)`. -/
def Tasks.trySend (s : Tasks) (source : Source) (command : RuntimeIoCommand) : Tasks :=
  if s.channel.length < s.capacity then
    { s with channel := s.channel ++ [command], log := s.log ++ [⟨source, command, true⟩] }
  else { s with log := s.log ++ [⟨source, command, false⟩] }

def Books.setStream (b : Books) (k : ℕ) (stream : Stream) : Books :=
  { b with connections := b.connections.modify k fun c => { c with stream := stream } }

def Tasks.setStream (s : Tasks) (k : ℕ) (stream : Stream) : Tasks :=
  { s with toBooks := s.toBooks.setStream k stream }

/-- `writer.try_send(TcpWriteRequest { transmit })`, into a channel for 128 requests. -/
def Writer.trySend (transmit : SipTransmit) : Writer → Option Writer
  | .idle requests =>
    if requests.length < 128 then some (.idle (requests ++ [transmit])) else none
  | .writing request requests =>
    if requests.length < 128 then some (.writing request (requests ++ [transmit])) else none
  | .ended => none

/-- Hand a message to the writer of a connection, if it has one that takes it. -/
def Stream.trySend (transmit : SipTransmit) : Stream → Option Stream
  | .running localAddr reader writer => (writer.trySend transmit).map (.running localAddr reader)
  | _ => none

/-- Hand a message to the writer of its association, if there is one that takes it. -/
def Tasks.request (s : Tasks) (transmit : SipTransmit) : Option Tasks := do
  let k ← s.writers transmit.associationId
  let c ← s.connections[k]?
  let stream ← c.stream.trySend transmit
  return s.setStream k stream

/-- Source: `io.rs`, `write_transmit` -/
def writeTransmit (s : Tasks) (transmit : SipTransmit) : Tasks :=
  if transmit.protocol = .udp then
    if s.udp then { s with inFlight := some transmit }
    else s.trySend .dispatcher (.completeSend transmit.sendId (.error 1))
  else match s.request transmit with
    | some s' => s'
    | none => s.trySend .dispatcher (.completeSend transmit.sendId (.error 1))

/-- The dispatcher takes the next message, unless it waits for a `send_to`.
Source: `io.rs`, `run_io` -/
def Tasks.dispatch (s : Tasks) : Tasks :=
  match s.transmits with
  | [] => s
  | transmit :: rest =>
    if s.inFlight.isSome then s
    else writeTransmit { s with transmits := rest, taken := s.taken ++ [transmit] } transmit

/-- The `send_to` returns: a number of bytes, or an error.
Source: `io.rs`, `write_transmit` -/
def Tasks.udpSent (s : Tasks) (result : Option ℕ) : Tasks :=
  match s.inFlight with
  | none => s
  | some transmit => { s with inFlight := none }.trySend .dispatcher
      (.completeSend transmit.sendId (result.elim (.error 1) .ok))

/-- Source: `io.rs`, `read_udp` -/
def Tasks.udpReceived (s : Tasks) (localAddr remoteAddr : SocketAddr) (data : Bytes) : Tasks :=
  if s.udp ∧ data ≠ [] then s.trySend .udpReader (.receive 0 .udp localAddr remoteAddr data) else s

/-- Source: `io.rs`, `accept_tcp` -/
def Tasks.accept (s : Tasks) (remoteAddr : SocketAddr) : Tasks :=
  { s with
    nextAssociationId := u64 (s.nextAssociationId + 1)
    connections := s.connections ++ [⟨s.nextAssociationId, remoteAddr, .spawned⟩] }

/-- The task of a connection is run for the first time; `localAddr` is what `local_addr` returns.
Source: `io.rs`, `handle_tcp_stream` -/
def Tasks.start (s : Tasks) (k : ℕ) (c : Connection) (localAddr : Option SocketAddr) : Tasks :=
  match c.stream, localAddr with
  | .spawned, none => s.setStream k .aborted
  | .spawned, some localAddr =>
    { s.setStream k (.running localAddr (.waiting []) (.idle [])) with
      writers := Function.update s.writers c.associationId (some k) }
  | _, _ => s

/-- One pass of the loop that takes messages off the buffer.
Source: `io.rs`, `handle_tcp_stream` -/
def Tasks.extract (ar : Arith) (s : Tasks) (k : ℕ) (c : Connection) : Tasks :=
  match c.stream with
  | .running localAddr (.extracting buffer) writer =>
    match nextSipMessage ar buffer with
    | none => s.setStream k (.running localAddr (.waiting buffer) writer)
    | some (message, rest) =>
      (s.setStream k (.running localAddr (.extracting rest) writer)).trySend (.reader k)
        (.receive c.associationId .tcp localAddr c.remoteAddr message)
  | _ => s

/-- The read loop is left, because `read` returned no bytes or an error.
Source: `io.rs`, `handle_tcp_stream` -/
def Tasks.readEnd (s : Tasks) (k : ℕ) (c : Connection) : Tasks :=
  match c.stream with
  | .running localAddr (.waiting _) writer =>
    let s' := { s.setStream k (.running localAddr .ended writer) with
      writers := Function.update s.writers c.associationId none }
    s'.trySend (.reader k) (.transportClosed c.associationId .tcp localAddr c.remoteAddr 1)
  | _ => s

/-- `read` returns; `bytes` are what it read, if anything.
Source: `io.rs`, `handle_tcp_stream` -/
def Tasks.read (s : Tasks) (k : ℕ) (c : Connection) (bytes : Bytes) : Tasks :=
  if bytes = [] then s.readEnd k c
  else match c.stream with
    | .running localAddr (.waiting buffer) writer =>
      s.setStream k (.running localAddr (.extracting (buffer ++ bytes)) writer)
    | _ => s

/-- The writer receives a request. Once its sender was dropped and there is none left, it ends.
Source: `io.rs`, `handle_tcp_stream` -/
def Tasks.receiveRequest (s : Tasks) (k : ℕ) (c : Connection) : Tasks :=
  match c.stream with
  | .running localAddr reader (.idle (request :: requests)) =>
    s.setStream k (.running localAddr reader (.writing request requests))
  | .running localAddr reader (.idle []) =>
    if s.writers c.associationId = some k then s
    else s.setStream k (.running localAddr reader .ended)
  | _ => s

/-- `write_all` returns. After an error the writer ends, and its channel is dropped with it.
Source: `io.rs`, `handle_tcp_stream` -/
def Tasks.written (s : Tasks) (k : ℕ) (c : Connection) (ok : Bool) : Tasks :=
  match c.stream with
  | .running localAddr reader (.writing request requests) =>
    if ok then
      (s.setStream k (.running localAddr reader (.idle requests))).trySend (.writer k)
        (.completeSend request.sendId (.ok request.data.length))
    else
      let s' := { s.setStream k (.running localAddr reader .ended) with
        dropped := s.dropped ++ requests }
      s'.trySend (.writer k) (.completeSend request.sendId (.error 1))
  | _ => s

/-- What happens next. -/
inductive Turn
  /-- The shim puts a message into the transmit queue. -/
  | transmit (transmit : SipTransmit)
  | dispatch
  | udpSent (result : Option ℕ)
  | udpReceived (localAddr remoteAddr : SocketAddr) (data : Bytes)
  | accept (remoteAddr : SocketAddr)
  | start (k : ℕ) (localAddr : Option SocketAddr)
  | read (k : ℕ) (bytes : Bytes)
  | extract (k : ℕ)
  | readFailed (k : ℕ)
  | receiveRequest (k : ℕ)
  | written (k : ℕ) (ok : Bool)
  /-- The consumer takes a command out of the channel. -/
  | consume

/-- What a connection's task does, if there is such a connection. -/
def Tasks.at (s : Tasks) (k : ℕ) (turn : Connection → Tasks) : Tasks :=
  s.connections[k]?.elim s turn

/-- One turn. A task that cannot run does nothing. -/
def Tasks.step (ar : Arith) (s : Tasks) : Turn → Tasks
  | .transmit transmit => { s with transmits := s.transmits ++ [transmit] }
  | .dispatch => s.dispatch
  | .udpSent result => s.udpSent result
  | .udpReceived localAddr remoteAddr data => s.udpReceived localAddr remoteAddr data
  | .accept remoteAddr => s.accept remoteAddr
  | .start k localAddr => s.at k fun c => s.start k c localAddr
  | .read k bytes => s.at k fun c => s.read k c bytes
  | .extract k => s.at k (s.extract ar k)
  | .readFailed k => s.at k (s.readEnd k)
  | .receiveRequest k => s.at k (s.receiveRequest k)
  | .written k ok => s.at k fun c => s.written k c ok
  | .consume => { s with channel := s.channel.tail }

/-- What a schedule makes of the tasks. -/
def runTasks (ar : Arith) (capacity : ℕ) (udp : Bool) (schedule : List Turn) : Tasks :=
  schedule.foldl (Tasks.step ar) (Tasks.init capacity udp)

end GmvPjsip.Io
