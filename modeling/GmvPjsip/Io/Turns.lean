import GmvPjsip.Io.Tasks

/-!
# What a turn does

`runTasks` interleaves the tasks of all connections in any order. What a turn of any task can do is
said here once.

* `Line` is a connection with what its reader and its writer have reported, and `StreamStep`
  everything that can happen to its stream.
* `Tasks.fate` is what the dispatcher does with a message, and `Outcome` what became of one.
* `Move` is everything a turn can do to the books, and `step_move` says that there is nothing else: what a
  turn reports is accepted exactly if the channel has room, `Tasks.room`, and what it drops is
  `Tasks.drops`.
* `step_spec`: what a turn does to each connection, to the transmit queue, to the channel, and to the
  table that leads from an association to a writer.
-/

namespace GmvPjsip.Io

open GmvPjsip.Auth
open GmvPjsip.Framer

/-! ## What is seen of a turn -/

/-- What became of a message, and the connection whose writer had it, if one had. -/
structure Outcome where
  transmit : SipTransmit
  result : Except Int ℕ
  connection : Option ℕ

/-- How an outcome is reported. -/
def Outcome.report (o : Outcome) : RuntimeIoCommand := .completeSend o.transmit.sendId o.result

/-- The id and the result of a `CompleteSend`. -/
def RuntimeIoCommand.completion : RuntimeIoCommand → Option (ℕ × Except Int ℕ)
  | .completeSend sendId result => some (sendId, result)
  | .receive .. => none
  | .transportClosed .. => none

/-- What the dispatcher does with a message: it waits for a `send_to`, it reports a failure, or it
hands the message to the writer of a connection. -/
inductive Fate
  | sending
  | refused
  | handed (k : ℕ)
  deriving DecidableEq

/-- UDP needs a socket, and any other protocol a writer that takes the message. -/
def Tasks.fate (s : Tasks) (transmit : SipTransmit) : Fate :=
  if transmit.protocol = .udp then if s.udp then .sending else .refused
  else match (s.writers transmit.associationId).bind fun k =>
      (s.connections[k]?.bind fun c => c.stream.trySend transmit).map fun _ => k with
    | some k => .handed k
    | none => .refused

/-- The message that the shim puts into the transmit queue in a turn. -/
def Turn.queued : Turn → Option SipTransmit
  | .transmit message => some message
  | _ => none

/-- The message that the dispatcher takes out of the transmit queue in a turn. -/
def Tasks.takes (s : Tasks) : Turn → Option SipTransmit
  | .dispatch =>
    match s.inFlight, s.transmits with
    | none, transmit :: _ => some transmit
    | _, _ => none
  | _ => none

/-- The message that the dispatcher hands to the writer of a connection in a turn. -/
def Tasks.hands (s : Tasks) (k : ℕ) (turn : Turn) : Option SipTransmit :=
  (s.takes turn).filter fun transmit => s.fate transmit = .handed k

/-- The chunk that the reader of a connection gets in a turn. -/
def Tasks.reads (s : Tasks) (k : ℕ) : Turn → Option Bytes
  | .read i bytes =>
    if i = k ∧ bytes ≠ [] then
      match s.connections[k]?.map Connection.stream with
      | some (.running _ (.waiting _) _) => some bytes
      | _ => none
    else none
  | _ => none

/-- The outcome that a turn brings about. -/
def Tasks.outcome (s : Tasks) : Turn → Option Outcome
  | .dispatch =>
    ((s.takes .dispatch).filter fun transmit => s.fate transmit = .refused).map (⟨·, .error 1, none⟩)
  | .udpSent result => s.inFlight.map (⟨·, result.elim (.error 1) .ok, none⟩)
  | .written k ok =>
    match s.connections[k]?.map Connection.stream with
    | some (.running _ _ (.writing request _)) =>
      some ⟨request, if ok then .ok request.data.length else .error 1, some k⟩
    | _ => none
  | _ => none

/-- The requests that a turn drops: those in the queue of a writer whose `write_all` fails. -/
def Tasks.drops (s : Tasks) : Turn → List SipTransmit
  | .written k false =>
    match s.connections[k]?.map Connection.stream with
    | some (.running _ _ (.writing _ requests)) => requests
    | _ => []
  | _ => []

/-- The command that the worker receives in a turn. -/
def Tasks.receives (s : Tasks) : Turn → Option RuntimeIoCommand
  | .consume => s.channel.head?
  | _ => none

/-- The requests that a writer has not answered. -/
def Writer.pending : Writer → List SipTransmit
  | .idle requests => requests
  | .writing request requests => request :: requests
  | .ended => []

/-- A request that is handed over is the last one pending. -/
theorem Writer.trySend_pending {transmit : SipTransmit} {writer writer' : Writer}
    (h : writer.trySend transmit = some writer') :
    writer'.pending = writer.pending ++ [transmit] := by
  cases writer with
  | ended => exact nomatch h
  | _ =>
    rw [Writer.trySend] at h
    split at h
    · obtain rfl := Option.some.inj h
      rfl
    · exact nomatch h

/-! ## The line of a connection -/

/-- The attempts of a task. -/
def Books.said (b : Books) (source : Source) : List RuntimeIoCommand :=
  (b.log.filter fun a => a.source = source).map Attempt.command

/-- The commands that were put into the channel. -/
def Books.put (b : Books) : List RuntimeIoCommand :=
  (b.log.filter Attempt.accepted).map Attempt.command

/-- The completions that the tasks tried to report. -/
def Books.completions (b : Books) : List (ℕ × Except Int ℕ) :=
  b.log.filterMap fun a => a.command.completion

/-- A connection, and what its reader and its writer have reported. -/
structure Line where
  connection : Option Connection
  reader : List RuntimeIoCommand
  writer : List RuntimeIoCommand

def Books.line (b : Books) (k : ℕ) : Line where
  connection := b.connections[k]?
  reader := b.said (.reader k)
  writer := b.said (.writer k)

/-- The association of a connection that was accepted. -/
def Line.association (l : Line) : Option ℕ := l.connection.map Connection.associationId

/-- What a turn has to do with one connection: the chunk that is read, the message that is handed to
its writer, the outcome of one that its writer had, what its reader reports, and the requests that are
dropped with the channel of its writer. -/
structure Doings where
  chunk : Option Bytes := none
  handed : Option SipTransmit := none
  ended : Option Outcome := none
  reader : Option RuntimeIoCommand := none
  dropped : List SipTransmit := []

/-- Everything that can happen to the stream of the connection `c`, which is the `k`-th. -/
inductive StreamStep (ar : Arith) (k : ℕ) (c : Connection) : Stream → Doings → Stream → Prop
  | aborted : StreamStep ar k c .spawned {} .aborted
  | started (localAddr : SocketAddr) :
      StreamStep ar k c .spawned {} (.running localAddr (.waiting []) (.idle []))
  /-- The reader reads a chunk. -/
  | got {localAddr : SocketAddr} {buffer : Bytes} {writer : Writer} (chunk : Bytes) :
      StreamStep ar k c (.running localAddr (.waiting buffer) writer) { chunk := some chunk }
        (.running localAddr (.extracting (buffer ++ chunk)) writer)
  /-- The reader takes a message off its buffer. -/
  | message {localAddr : SocketAddr} {buffer message rest : Bytes} {writer : Writer}
      (hnext : nextSipMessage ar buffer = some (message, rest)) :
      StreamStep ar k c (.running localAddr (.extracting buffer) writer)
        { reader := some (.receive c.associationId .tcp localAddr c.remoteAddr message) }
        (.running localAddr (.extracting rest) writer)
  /-- There is no message in the buffer any more. -/
  | rested {localAddr : SocketAddr} {buffer : Bytes} {writer : Writer}
      (hnext : nextSipMessage ar buffer = none) :
      StreamStep ar k c (.running localAddr (.extracting buffer) writer) {}
        (.running localAddr (.waiting buffer) writer)
  | closed {localAddr : SocketAddr} {buffer : Bytes} {writer : Writer} :
      StreamStep ar k c (.running localAddr (.waiting buffer) writer)
        { reader := some (.transportClosed c.associationId .tcp localAddr c.remoteAddr 1) }
        (.running localAddr .ended writer)
  /-- The writer gets a message. -/
  | handed {localAddr : SocketAddr} {reader : Reader} {writer writer' : Writer}
      {transmit : SipTransmit} (htry : writer.trySend transmit = some writer') :
      StreamStep ar k c (.running localAddr reader writer) { handed := some transmit }
        (.running localAddr reader writer')
  | took {localAddr : SocketAddr} {reader : Reader} {request : SipTransmit}
      {requests : List SipTransmit} :
      StreamStep ar k c (.running localAddr reader (.idle (request :: requests))) {}
        (.running localAddr reader (.writing request requests))
  | retired {localAddr : SocketAddr} {reader : Reader} :
      StreamStep ar k c (.running localAddr reader (.idle [])) {} (.running localAddr reader .ended)
  | wrote {localAddr : SocketAddr} {reader : Reader} {request : SipTransmit}
      {requests : List SipTransmit} :
      StreamStep ar k c (.running localAddr reader (.writing request requests))
        { ended := some ⟨request, .ok request.data.length, some k⟩ }
        (.running localAddr reader (.idle requests))
  | failed {localAddr : SocketAddr} {reader : Reader} {request : SipTransmit}
      {requests : List SipTransmit} :
      StreamStep ar k c (.running localAddr reader (.writing request requests))
        { ended := some ⟨request, .error 1, some k⟩, dropped := requests }
        (.running localAddr reader .ended)

/-- Everything a turn can do to the line of the `k`-th connection. -/
inductive LineStep (ar : Arith) (k : ℕ) (l : Line) : Doings → Line → Prop
  | still : LineStep ar k l {} l
  | accepted (hnone : l.connection = none) (c : Connection) (hstream : c.stream = .spawned) :
      LineStep ar k l {} { l with connection := some c }
  | went {c : Connection} {d : Doings} {stream : Stream} (hc : l.connection = some c)
      (h : StreamStep ar k c c.stream d stream) :
      LineStep ar k l d ⟨some { c with stream := stream }, l.reader ++ d.reader.toList,
        l.writer ++ (d.ended.map Outcome.report).toList⟩

variable {ar : Arith} {k i : ℕ} {d : Doings} {c : Connection} {s' : Tasks}

/-- A connection keeps its association. -/
theorem LineStep.keeps {l l' : Line} (h : LineStep ar k l d l') {association : ℕ}
    (hl : l.association = some association) :
    l'.association = some association := by
  cases h with
  | still => exact hl
  | accepted hnone =>
    rw [Line.association, hnone] at hl
    exact nomatch hl
  | went hc =>
    rw [Line.association, hc] at hl
    exact hl

/-- Not both the reader and the writer report something. -/
theorem StreamStep.one_reports {old new : Stream}
    (h : StreamStep ar k c old d new) : d.reader = none ∨ d.ended = none := by
  cases h <;> simp

/-- The reader reports no completion. -/
theorem StreamStep.completion_reader {old new : Stream} (h : StreamStep ar k c old d new) :
    d.reader.bind RuntimeIoCommand.completion = none := by
  cases h <;> rfl

/-! ## Reports -/

/-- A task reports something or nothing. -/
def Tasks.tell (s : Tasks) (source : Source) : Option RuntimeIoCommand → Tasks
  | none => s
  | some command => s.trySend source command

/-- What a report does. -/
structure Told (s s' : Tasks) (source : Source) (command : Option RuntimeIoCommand) : Prop where
  connections : s'.connections = s.connections
  taken : s'.taken = s.taken
  transmits : s'.transmits = s.transmits
  inFlight : s'.inFlight = s.inFlight
  writers : s'.writers = s.writers
  said : ∀ source', s'.said source' = s.said source' ++ if source = source' then command.toList else []
  completions : s'.completions = s.completions ++ (command.bind RuntimeIoCommand.completion).toList
  channel : ∃ sent, s'.put = s.put ++ sent ∧ s'.channel = s.channel ++ sent

/-- Putting a command into the channel is all that telling does. -/
theorem told_tell (s : Tasks) (source : Source) (command : Option RuntimeIoCommand) :
    Told s (s.tell source command) source command := by
  cases command with
  | none =>
    exact ⟨rfl, rfl, rfl, rfl, rfl, by simp [Tasks.tell], by simp [Tasks.tell], [],
      by simp [Tasks.tell]⟩
  | some command =>
    simp only [Tasks.tell, Tasks.trySend]
    split
    · refine ⟨rfl, rfl, rfl, rfl, rfl, fun source' => ?_, ?_, [command], ?_, rfl⟩
      · by_cases h : source = source' <;> simp [Books.said, h]
      · cases h : command.completion <;> simp [Books.completions, h]
      · simp [Books.put]
    · refine ⟨rfl, rfl, rfl, rfl, rfl, fun source' => ?_, ?_, [], ?_, (List.append_nil _).symm⟩
      · by_cases h : source = source' <;> simp [Books.said, h]
      · cases h : command.completion <;> simp [Books.completions, h]
      · simp [Books.put]

/-! ## The tasks of a connection -/

/-- A task of the `k`-th connection goes on: its stream changes, something is reported, and the
connection may get its entry in `writers` or lose it. -/
inductive Advance (ar : Arith) (s : Tasks) (k : ℕ) (c : Connection) : Doings → Tasks → Prop
  | still : Advance ar s k c {} s
  | went {d : Doings} {stream : Stream} (h : StreamStep ar k c c.stream d stream)
      (writers : ℕ → Option ℕ)
      (hwriters : ∀ a i, writers a = some i → s.writers a = some i ∨ k = i ∧ c.associationId = a)
      {s' : Tasks} (heq : s' = (Tasks.tell { s.setStream k stream with
        writers := writers, dropped := s.dropped ++ d.dropped } (.reader k) d.reader).tell (.writer k)
        (d.ended.map Outcome.report)) : Advance ar s k c d s'

section
variable {ar : Arith} {s : Tasks} {k : ℕ} {c : Connection}

/-- A step that drops nothing. -/
theorem Advance.rewired {stream : Stream} (h : StreamStep ar k c c.stream d stream)
    (hdropped : d.dropped = []) (writers : ℕ → Option ℕ)
    (hwriters : ∀ a i, writers a = some i → s.writers a = some i ∨ k = i ∧ c.associationId = a)
    (heq : s' = (Tasks.tell { s.setStream k stream with writers := writers } (.reader k)
      d.reader).tell (.writer k) (d.ended.map Outcome.report)) : Advance ar s k c d s' := by
  refine .went h writers hwriters ?_
  rw [hdropped, List.append_nil]
  exact heq

/-- An advance that leaves the writers as they are. -/
theorem Advance.moved {stream : Stream} (h : StreamStep ar k c c.stream d stream)
    (hdropped : d.dropped = []) (heq : s' = ((s.setStream k stream).tell (.reader k)
      d.reader).tell (.writer k) (d.ended.map Outcome.report)) : Advance ar s k c d s' :=
  .rewired h hdropped s.writers (fun _ _ => .inl) heq

/-- The task of a connection starts. -/
theorem advance_start (localAddr : Option SocketAddr) :
    Advance ar s k c {} (s.start k c localAddr) := by
  obtain ⟨association, remoteAddr, stream⟩ := c
  cases stream with
  | spawned =>
    cases localAddr with
    | none => exact .moved .aborted rfl rfl
    | some localAddr =>
      refine .rewired (.started localAddr) rfl (Function.update s.writers association (some k))
        (fun a i hi => ?_) rfl
      by_cases ha : a = association
      · rw [ha, Function.update_self] at hi
        exact .inr ⟨Option.some.inj hi, ha.symm⟩
      · rw [Function.update_of_ne ha] at hi
        exact .inl hi
  | _ => exact .still

/-- Its reader ends. -/
theorem advance_readEnd : ∃ said, Advance ar s k c { reader := said } (s.readEnd k c) := by
  obtain ⟨association, remoteAddr, stream⟩ := c
  cases stream with
  | running localAddr reader =>
    cases reader with
    | waiting =>
      refine ⟨_, .rewired .closed rfl (Function.update s.writers association none)
        (fun a i hi => .inl ?_) rfl⟩
      by_cases ha : a = association
      · rw [ha, Function.update_self] at hi
        exact nomatch hi
      · rwa [Function.update_of_ne ha] at hi
    | _ => exact ⟨none, .still⟩
  | _ => exact ⟨none, .still⟩

/-- Its reader takes a message off its buffer. -/
theorem advance_extract : ∃ said, Advance ar s k c { reader := said } (s.extract ar k c) := by
  obtain ⟨association, remoteAddr, stream⟩ := c
  cases stream with
  | running localAddr reader =>
    cases reader with
    | extracting buffer =>
      simp only [Tasks.extract]
      cases hnext : nextSipMessage ar buffer with
      | none => exact ⟨_, .moved (.rested hnext) rfl rfl⟩
      | some found => exact ⟨_, .moved (.message hnext) rfl rfl⟩
    | _ => exact ⟨none, .still⟩
  | _ => exact ⟨none, .still⟩

/-- Its reader receives bytes. -/
theorem advance_read (hc : s.connections[k]? = some c) (bytes : Bytes) :
    ∃ said, Advance ar s k c { chunk := s.reads k (.read k bytes), reader := said }
      (s.read k c bytes) := by
  unfold Tasks.read Tasks.reads
  by_cases hbytes : bytes = []
  · simp only [hbytes, if_true, ne_eq, not_true_eq_false, and_false, if_false]
    exact advance_readEnd
  · simp only [ne_eq, hbytes, not_false_eq_true, and_self, if_true, if_false, hc, Option.map_some]
    obtain ⟨association, remoteAddr, stream⟩ := c
    cases stream with
    | running localAddr reader =>
      cases reader with
      | waiting => exact ⟨_, .moved (.got bytes) rfl rfl⟩
      | _ => exact ⟨none, .still⟩
    | _ => exact ⟨none, .still⟩

/-- Its writer takes a request. -/
theorem advance_receiveRequest : Advance ar s k c {} (s.receiveRequest k c) := by
  obtain ⟨association, remoteAddr, stream⟩ := c
  cases stream with
  | running localAddr reader writer =>
    cases writer with
    | idle requests =>
      cases requests with
      | cons request requests => exact .moved .took rfl rfl
      | nil =>
        simp only [Tasks.receiveRequest]
        split
        · exact .still
        · exact .moved .retired rfl rfl
    | _ => exact .still
  | _ => exact .still

/-- Its writer is done with a request. -/
theorem advance_written (hc : s.connections[k]? = some c) (ok : Bool) :
    Advance ar s k c { ended := s.outcome (.written k ok), dropped := s.drops (.written k ok) }
      (s.written k c ok) := by
  rw [Tasks.outcome, hc]
  obtain ⟨association, remoteAddr, stream⟩ := c
  cases stream with
  | running localAddr reader writer =>
    cases writer with
    | writing =>
      cases ok with
      | true => exact .moved .wrote rfl rfl
      | false =>
        rw [Tasks.drops, hc]
        exact .went .failed s.writers (fun _ _ => .inl) rfl
    | _ => cases ok <;> simp only [Tasks.drops, hc, Option.map_some] <;> exact .still
  | _ => cases ok <;> simp only [Tasks.drops, hc, Option.map_some] <;> exact .still

end

/-- The connection whose task has the turn. -/
def Turn.connection : Turn → Option ℕ
  | .start k _ => some k
  | .read k _ => some k
  | .extract k => some k
  | .readFailed k => some k
  | .receiveRequest k => some k
  | .written k _ => some k
  | _ => none

section
variable (ar : Arith) {s : Tasks} {turn : Turn} {i : ℕ}

/-- A task of a connection has its turn. -/
theorem advance_step (hturn : turn.connection = some i) (hc : s.connections[i]? = some c) : ∃ said,
    Advance ar s i c ⟨s.reads i turn, none, s.outcome turn, said, s.drops turn⟩ (s.step ar turn) := by
  have hat : ∀ f, s.at i f = f c := fun f => by rw [Tasks.at, hc]; rfl
  cases turn with
  | start j localAddr =>
    obtain rfl := Option.some.inj hturn
    rw [Tasks.step, hat]
    exact ⟨none, advance_start localAddr⟩
  | read j bytes =>
    obtain rfl := Option.some.inj hturn
    rw [Tasks.step, hat]
    exact advance_read hc bytes
  | extract =>
    obtain rfl := Option.some.inj hturn
    rw [Tasks.step, hat]
    exact advance_extract
  | readFailed =>
    obtain rfl := Option.some.inj hturn
    rw [Tasks.step, hat]
    exact advance_readEnd
  | receiveRequest =>
    obtain rfl := Option.some.inj hturn
    rw [Tasks.step, hat]
    exact ⟨none, advance_receiveRequest⟩
  | written j ok =>
    obtain rfl := Option.some.inj hturn
    rw [Tasks.step, hat]
    exact ⟨none, advance_written hc ok⟩
  | transmit | dispatch | udpSent | udpReceived | accept | consume => cases hturn

/-- There is no such connection. -/
theorem step_absent (ar : Arith) (hturn : turn.connection = some i) (hc : s.connections[i]? = none) :
    s.step ar turn = s ∧ s.reads i turn = none ∧ s.outcome turn = none ∧ s.drops turn = [] := by
  cases turn with
  | written j ok =>
    obtain rfl := Option.some.inj hturn
    cases ok <;> simp [Tasks.step, Tasks.at, Tasks.reads, Tasks.outcome, Tasks.drops, hc]
  | start | read | extract | readFailed | receiveRequest =>
    obtain rfl := Option.some.inj hturn
    simp [Tasks.step, Tasks.at, Tasks.reads, Tasks.outcome, Tasks.drops, hc]
  | transmit | dispatch | udpSent | udpReceived | accept | consume => cases hturn

end

/-! ## The dispatcher -/

/-- A handed request is for a stream that has a writer. -/
theorem fate_handed {s : Tasks} {transmit : SipTransmit} (h : s.fate transmit = .handed k) :
    transmit.protocol ≠ .udp ∧ s.writers transmit.associationId = some k := by
  unfold Tasks.fate at h
  split at h
  · split at h <;> exact nomatch h
  · next hprotocol =>
    split at h
    · next i hi =>
      obtain ⟨j, hj, hmap⟩ := Option.bind_eq_some_iff.mp hi
      obtain ⟨-, -, rfl⟩ := Option.map_eq_some_iff.mp hmap
      exact ⟨hprotocol, hj.trans (congrArg some (Fate.handed.inj h))⟩
    · exact nomatch h

/-- What the dispatcher does with a message. -/
theorem writeTransmit_spec (ar : Arith) (s : Tasks) (transmit : SipTransmit) :
    s.fate transmit = .sending ∧ writeTransmit s transmit = { s with inFlight := some transmit } ∨
      s.fate transmit = .refused ∧ writeTransmit s transmit =
        s.tell .dispatcher (some (Outcome.report ⟨transmit, .error 1, none⟩)) ∨
      ∃ k c, s.fate transmit = .handed k ∧ s.connections[k]? = some c ∧
        Advance ar s k c { handed := some transmit } (writeTransmit s transmit) := by
  unfold writeTransmit Tasks.fate
  by_cases hprotocol : transmit.protocol = .udp
  · rw [if_pos hprotocol, if_pos hprotocol]
    cases s.udp with
    | true => exact .inl ⟨rfl, rfl⟩
    | false => exact .inr (.inl ⟨rfl, rfl⟩)
  · rw [if_neg hprotocol, if_neg hprotocol, Tasks.request]
    cases s.writers transmit.associationId with
    | none => exact .inr (.inl ⟨rfl, rfl⟩)
    | some k =>
      dsimp only [bind, pure, Option.bind_some]
      cases hc : s.connections[k]? with
      | none => exact .inr (.inl ⟨rfl, rfl⟩)
      | some c =>
        dsimp only [Option.bind_some]
        cases htry : c.stream.trySend transmit with
        | none => exact .inr (.inl ⟨rfl, rfl⟩)
        | some stream =>
          refine .inr (.inr ⟨k, c, rfl, hc, ?_⟩)
          obtain ⟨association, remoteAddr, old⟩ := c
          cases old with
          | running =>
            obtain ⟨writer', hwriter, rfl⟩ := Option.map_eq_some_iff.mp htry
            exact .moved (.handed hwriter) rfl rfl
          | _ => exact nomatch htry

/-! ## What a turn does to the books -/

/-- Note an attempt to report. -/
def Books.report (b : Books) (source : Source) (command : RuntimeIoCommand) (accepted : Bool) :
    Books :=
  { b with log := b.log ++ [⟨source, command, accepted⟩] }

/-- The channel has room. -/
def Tasks.room (s : Tasks) : Bool := s.channel.length < s.capacity

/-- What the tasks of a connection report, and whether there is room for it. -/
def Doings.attempts (d : Doings) (k : ℕ) (room : Bool) : List Attempt :=
  d.reader.toList.map (⟨.reader k, ·, room⟩) ++ d.ended.toList.map (⟨.writer k, ·.report, room⟩)

/-- Everything a turn can do to the books, if the channel has room or if it has none, with the requests
that it drops. -/
inductive Move (room : Bool) (b : Books) : List SipTransmit → Books → Prop
  | still : Move room b [] b
  /-- The dispatcher takes a message and waits for its `send_to`. -/
  | sending (transmit : SipTransmit) (hflight : b.inFlight = none) :
      Move room b [] { b with inFlight := some transmit, taken := b.taken ++ [transmit] }
  /-- The dispatcher takes a message that nobody can send. -/
  | refused (transmit : SipTransmit) :
      Move room b [] ({ b with taken := b.taken ++ [transmit] }.report .dispatcher
        (.completeSend transmit.sendId (.error 1)) room)
  /-- A `send_to` returns. -/
  | sent {transmit : SipTransmit} (hflight : b.inFlight = some transmit) (result : Except Int ℕ) :
      Move room b [] ({ b with inFlight := none }.report .dispatcher
        (.completeSend transmit.sendId result) room)
  | datagram (localAddr remoteAddr : SocketAddr) (data : Bytes) :
      Move room b [] (b.report .udpReader (.receive 0 .udp localAddr remoteAddr data) room)
  | accepted (remoteAddr : SocketAddr) :
      Move room b [] { b with
        nextAssociationId := u64 (b.nextAssociationId + 1)
        connections := b.connections ++ [⟨b.nextAssociationId, remoteAddr, .spawned⟩] }
  /-- The stream of a connection goes on. What is handed to its writer was taken by the dispatcher. -/
  | went {ar : Arith} {k : ℕ} {c : Connection} {d : Doings} {stream : Stream}
      (hc : b.connections[k]? = some c) (h : StreamStep ar k c c.stream d stream) :
      Move room b d.dropped { b.setStream k stream with
        taken := b.taken ++ d.handed.toList
        dropped := b.dropped ++ d.dropped
        log := b.log ++ d.attempts k room }

/-- An attempt is noted, and it is accepted if there is room. -/
theorem trySend_toBooks (s : Tasks) (source : Source) (command : RuntimeIoCommand) :
    (s.trySend source command).toBooks = s.toBooks.report source command s.room := by
  unfold Tasks.trySend Tasks.room
  split_ifs with hroom
  · rw [decide_eq_true hroom]
    rfl
  · rw [decide_eq_false hroom]
    rfl

/-- Telling is written to the log. -/
theorem tell_toBooks (s : Tasks) (source : Source) (command : Option RuntimeIoCommand) :
    (s.tell source command).toBooks =
      { s.toBooks with log := s.log ++ command.toList.map (⟨source, ·, s.room⟩) } := by
  cases command with
  | none => simp [Tasks.tell]
  | some command => exact trySend_toBooks s source command

/-- At most one of the two tasks speaks. -/
theorem tell_tell_toBooks (h : d.reader = none ∨ d.ended = none) (s : Tasks) (k : ℕ) :
    ((s.tell (.reader k) d.reader).tell (.writer k) (d.ended.map Outcome.report)).toBooks =
      { s.toBooks with log := s.log ++ d.attempts k s.room } := by
  rcases h with hreader | hended
  · have hnone : s.tell (.reader k) d.reader = s := by rw [hreader, Tasks.tell]
    rw [hnone, tell_toBooks]
    cases hended : d.ended <;> simp [Doings.attempts, hreader, hended]
  · simp [tell_toBooks, Doings.attempts, hended]

/-- An advance of a connection is a move. -/
theorem Advance.move {s : Tasks} {taken transmits : List SipTransmit}
    (h : Advance ar { s with taken := taken, transmits := transmits } k c d s')
    (hc : s.connections[k]? = some c) (htaken : taken = s.taken ++ d.handed.toList) :
    Move s.room s.toBooks d.dropped s'.toBooks := by
  subst htaken
  cases h with
  | still =>
    rw [Option.toList_none, List.append_nil]
    exact .still
  | went hstep writers _ heq =>
    rw [heq, tell_tell_toBooks hstep.one_reports]
    exact .went hc hstep

/-- So is the dispatch of a request. -/
theorem dispatch_move (ar : Arith) (s : Tasks) : Move s.room s.toBooks [] s.dispatch.toBooks := by
  unfold Tasks.dispatch
  cases s.transmits with
  | nil => exact .still
  | cons transmit rest =>
    by_cases hflight : s.inFlight.isSome = true
    · simp only [if_pos hflight]
      exact .still
    simp only [if_neg hflight]
    obtain ⟨-, heq⟩ | ⟨-, heq⟩ | ⟨k, c, -, hc, hadvance⟩ := writeTransmit_spec ar
      { s with taken := s.taken ++ [transmit], transmits := rest } transmit
    · rw [heq]
      exact .sending transmit (by simpa using hflight)
    · rw [heq, Tasks.tell, trySend_toBooks]
      exact .refused transmit
    · exact hadvance.move hc rfl

/-- **A turn does one of these things to the books.** -/
theorem step_move (ar : Arith) (s : Tasks) (turn : Turn) :
    Move s.room s.toBooks (s.drops turn) (s.step ar turn).toBooks := by
  have hconnection : ∀ {turn i}, Turn.connection turn = some i →
      Move s.room s.toBooks (s.drops turn) (s.step ar turn).toBooks := by
    intro turn i hturn
    cases hc : s.connections[i]? with
    | none =>
      obtain ⟨hstep, -, -, hdrops⟩ := step_absent ar hturn hc
      rw [hstep, hdrops]
      exact .still
    | some c =>
      obtain ⟨said, hadvance⟩ := advance_step ar hturn hc
      exact hadvance.move hc (List.append_nil _).symm
  cases turn with
  | transmit | consume => exact .still
  | dispatch => exact dispatch_move ar s
  | udpSent =>
    simp only [Tasks.step, Tasks.udpSent]
    cases hflight : s.inFlight with
    | none => exact .still
    | some transmit =>
      simp only [trySend_toBooks]
      exact .sent hflight _
  | udpReceived localAddr remoteAddr data =>
    simp only [Tasks.step, Tasks.udpReceived]
    split
    · rw [trySend_toBooks]
      exact .datagram localAddr remoteAddr data
    · exact .still
  | accept remoteAddr => exact .accepted remoteAddr
  | start | read | extract | readFailed | receiveRequest | written => exact hconnection rfl

/-! ## What a turn does -/

/-- What a turn does to the tasks. -/
structure TurnSpec (ar : Arith) (s : Tasks) (turn : Turn) (s' : Tasks) : Prop where
  line : ∀ k, ∃ said dropped, LineStep ar k (s.line k) ⟨s.reads k turn, s.hands k turn,
    (s.outcome turn).filter fun o => o.connection = some k, said, dropped⟩ (s'.line k)
  taken : s'.taken = s.taken ++ (s.takes turn).toList
  transmits : s.transmits ++ turn.queued.toList = (s.takes turn).toList ++ s'.transmits
  inFlight : ∀ t, s'.inFlight = some t → s.inFlight = some t ∨ s.takes turn = some t
  writers : ∀ a i, s'.writers a = some i →
    s.writers a = some i ∨ ∃ c, s.connections[i]? = some c ∧ c.associationId = a
  channel : ∃ sent, s'.put = s.put ++ sent ∧ s.channel ++ sent = (s.receives turn).toList ++ s'.channel
  completions : s'.completions =
    s.completions ++ ((s.outcome turn).bind fun o => o.report.completion).toList

section
variable {ar : Arith} {s : Tasks} {turn : Turn}

/-- A turn that leaves all connections as they are. -/
theorem turnSpec_tell (source : Source) (hsource : ∀ k, source ≠ .reader k ∧ source ≠ .writer k)
    (command : Option RuntimeIoCommand) (inFlight : Option SipTransmit)
    (taken transmits : List SipTransmit)
    (hline : ∀ k, s.reads k turn = none ∧ s.hands k turn = none ∧
      (s.outcome turn).filter (fun o => o.connection = some k) = none)
    (htaken : taken = s.taken ++ (s.takes turn).toList)
    (htransmits : s.transmits ++ turn.queued.toList = (s.takes turn).toList ++ transmits)
    (hinFlight : ∀ t, inFlight = some t → s.inFlight = some t ∨ s.takes turn = some t)
    (hreceives : s.receives turn = none)
    (hcompletion : command.bind RuntimeIoCommand.completion =
      (s.outcome turn).bind fun o => o.report.completion) :
    TurnSpec ar s turn (Tasks.tell { s with
      inFlight := inFlight, taken := taken, transmits := transmits } source command) := by
  have htold := told_tell { s with
    inFlight := inFlight, taken := taken, transmits := transmits } source command
  generalize Tasks.tell { s with
    inFlight := inFlight, taken := taken, transmits := transmits } source command = s' at htold ⊢
  obtain ⟨sent, hput, hchannel⟩ := htold.channel
  refine ⟨fun k => ⟨none, [], ?_⟩, ?_, ?_, ?_, ?_, ⟨sent, hput, ?_⟩, ?_⟩
  · obtain ⟨hreads, hhands, hended⟩ := hline k
    have hsame : s'.line k = s.line k := by
      rw [Books.line, htold.said, htold.said, if_neg (hsource k).1, if_neg (hsource k).2,
        htold.connections, List.append_nil, List.append_nil]
      rfl
    rw [hreads, hhands, hended, hsame]
    exact .still
  · rw [htold.taken, ← htaken]
  · rw [htold.transmits, htransmits]
  · rw [htold.inFlight]
    exact hinFlight
  · rw [htold.writers]
    exact fun _ _ => .inl
  · rw [hreceives, hchannel]
    rfl
  · rw [htold.completions, hcompletion]
    rfl

/-- A turn that does nothing. -/
theorem turnSpec_still (hreads : ∀ k, s.reads k turn = none) (htakes : s.takes turn = none)
    (hqueued : turn.queued = none) (houtcome : s.outcome turn = none)
    (hreceives : s.receives turn = none) : TurnSpec ar s turn s := by
  refine turnSpec_tell .dispatcher (fun _ => ⟨nofun, nofun⟩) none s.inFlight s.taken s.transmits
    (fun k => ⟨hreads k, ?_, ?_⟩) ?_ ?_ (fun _ => .inl) hreceives ?_
  · rw [Tasks.hands, htakes]
    rfl
  · rw [houtcome]
    rfl
  · rw [htakes]
    exact (List.append_nil _).symm
  · rw [htakes, hqueued]
    exact List.append_nil _
  · rw [houtcome]
    rfl

/-- A turn in which the stream of one connection goes on. -/
theorem Advance.turnSpec {taken transmits : List SipTransmit}
    (h : Advance ar { s with taken := taken, transmits := transmits } k c d s')
    (hc : s.connections[k]? = some c)
    (hown : d.chunk = s.reads k turn ∧ d.handed = s.hands k turn ∧ d.ended = s.outcome turn)
    (hother : ∀ j, j ≠ k → s.reads j turn = none ∧ s.hands j turn = none)
    (houtcome : ∀ o, s.outcome turn = some o → o.connection = some k)
    (htaken : taken = s.taken ++ (s.takes turn).toList)
    (htransmits : s.transmits ++ turn.queued.toList = (s.takes turn).toList ++ transmits)
    (hreceives : s.receives turn = none) : TurnSpec ar s turn s' := by
  have hended : (s.outcome turn).filter (fun o => o.connection = some k) = s.outcome turn := by
    cases ho : s.outcome turn with
    | none => rfl
    | some o => simp [houtcome o ho]
  have hothers : ∀ j, j ≠ k → (s.outcome turn).filter (fun o => o.connection = some j) = none := by
    intro j hj
    cases ho : s.outcome turn with
    | none => rfl
    | some o => simp [houtcome o ho, hj.symm]
  cases h with
  | still =>
    obtain ⟨hreads, hhands, hnone⟩ := hown
    refine turnSpec_tell .dispatcher (fun _ => ⟨nofun, nofun⟩) none s.inFlight taken transmits
      (fun j => ?_) htaken htransmits (fun _ => .inl) hreceives (by rw [← hnone]; rfl)
    by_cases hj : j = k
    · rw [hj, ← hreads, ← hhands, hended, ← hnone]
      exact ⟨rfl, rfl, rfl⟩
    · exact ⟨(hother j hj).1, (hother j hj).2, hothers j hj⟩
  | @went _ stream hstep writers hwriters _ heq =>
    generalize hs₁ : ({ Tasks.setStream { s with taken := taken, transmits := transmits } k stream with
      writers := writers, dropped := s.dropped ++ d.dropped } : Tasks) = s₁ at heq
    have htold := told_tell s₁ (.reader k) d.reader
    generalize s₁.tell (.reader k) d.reader = s₂ at htold heq
    have htold' := told_tell s₂ (.writer k) (d.ended.map Outcome.report)
    rw [← heq] at htold'
    obtain ⟨sent, hput, hchannel⟩ := htold.channel
    obtain ⟨sent', hput', hchannel'⟩ := htold'.channel
    have hconnections : s'.connections = (s.setStream k stream).connections := by
      rw [htold'.connections, htold.connections, ← hs₁]
      rfl
    have hlog : s₁.log = s.log ∧ s₁.channel = s.channel := by
      rw [← hs₁]
      exact ⟨rfl, rfl⟩
    refine ⟨fun j => ?_, ?_, ?_, ?_, ?_, ⟨sent ++ sent', ?_, ?_⟩, ?_⟩
    · by_cases hj : j = k
      · subst hj
        refine ⟨d.reader, d.dropped, ?_⟩
        have hline : s'.line j = ⟨some { c with stream := stream },
            s.said (.reader j) ++ d.reader.toList,
            s.said (.writer j) ++ (d.ended.map Outcome.report).toList⟩ := by
          rw [Books.line, htold'.said, htold'.said, htold.said, htold.said, hconnections]
          simp [Tasks.setStream, Books.setStream, Books.said, hc, hlog.1]
        rw [hended, ← hown.1, ← hown.2.1, ← hown.2.2, hline]
        exact .went hc hstep
      · refine ⟨none, [], ?_⟩
        have hline : s'.line j = s.line j := by
          rw [Books.line, htold'.said, htold'.said, htold.said, htold.said, hconnections]
          simp [Tasks.setStream, Books.setStream, Books.said, Books.line, hlog.1, Ne.symm hj]
        rw [hline, (hother j hj).1, (hother j hj).2, hothers j hj]
        exact .still
    · rw [htold'.taken, htold.taken, ← hs₁, ← htaken]
      rfl
    · rw [htold'.transmits, htold.transmits, ← hs₁, htransmits]
      rfl
    · rw [htold'.inFlight, htold.inFlight, ← hs₁]
      exact fun _ => .inl
    · rw [htold'.writers, htold.writers, ← hs₁]
      intro a i hi
      refine (hwriters a i hi).imp_right ?_
      rintro ⟨rfl, ha⟩
      exact ⟨c, hc, ha⟩
    · rw [hput', hput, List.append_assoc, Books.put, hlog.1]
      rfl
    · rw [hreceives, hchannel', hchannel, hlog.2, List.append_assoc]
      rfl
    · rw [htold'.completions, htold.completions, hstep.completion_reader, ← hown.2.2,
        Option.bind_map, Books.completions, hlog.1]
      exact congrArg (· ++ _) (List.append_nil _)

/-- A turn of one connection reads nothing from another. -/
theorem reads_of_ne (hturn : turn.connection = some i) (h : k ≠ i) : s.reads k turn = none := by
  cases turn with
  | read =>
    obtain rfl := Option.some.inj hturn
    exact if_neg fun hread => h hread.1.symm
  | _ => rfl

/-- The outcome of its turn is an outcome of the connection. -/
theorem connection_of_outcome (hturn : turn.connection = some i) {o : Outcome}
    (h : s.outcome turn = some o) : o.connection = some i := by
  cases turn with
  | written =>
    obtain rfl := Option.some.inj hturn
    rw [Tasks.outcome] at h
    split at h
    · rw [← Option.some.inj h]
    · exact nomatch h
  | dispatch => exact nomatch hturn
  | udpSent => exact nomatch hturn
  | _ => exact nomatch h

/-- A task of a connection has its turn. -/
theorem turnSpec_connection (hturn : turn.connection = some i) :
    TurnSpec ar s turn (s.step ar turn) := by
  obtain ⟨htakes, hqueued, hreceives⟩ :
      s.takes turn = none ∧ turn.queued = none ∧ s.receives turn = none := by
    cases turn <;> first | exact ⟨rfl, rfl, rfl⟩ | exact nomatch hturn
  have hhands : ∀ k, s.hands k turn = none := fun k => by rw [Tasks.hands, htakes]; rfl
  cases hc : s.connections[i]? with
  | some c =>
    obtain ⟨said, hadvance⟩ := advance_step ar hturn hc
    exact hadvance.turnSpec hc ⟨rfl, (hhands i).symm, rfl⟩
      (fun j hj => ⟨reads_of_ne hturn hj, hhands j⟩) (fun o => connection_of_outcome hturn)
      (by rw [htakes]; simp) (by rw [htakes, hqueued]; simp) hreceives
  | none =>
    obtain ⟨hstep, hreads, houtcome, -⟩ := step_absent ar hturn hc
    rw [hstep]
    refine turnSpec_still (fun k => ?_) htakes hqueued houtcome hreceives
    by_cases hk : k = i
    · rw [hk, hreads]
    · exact reads_of_ne hturn hk

/-- A dispatch is as specified. -/
theorem turnSpec_dispatch : TurnSpec ar s .dispatch s.dispatch := by
  have hstill : s.takes .dispatch = none → TurnSpec ar s .dispatch s := fun htakes =>
    turnSpec_still (fun _ => rfl) htakes rfl (by rw [Tasks.outcome, htakes]; rfl) rfl
  cases htransmits : s.transmits with
  | nil =>
    have hsame : s.dispatch = s := by rw [Tasks.dispatch, htransmits]
    rw [hsame]
    exact hstill (by simp [Tasks.takes, htransmits])
  | cons transmit rest =>
  cases hflight : s.inFlight with
  | some waiting =>
    have hsame : s.dispatch = s := by simp [Tasks.dispatch, htransmits, hflight]
    rw [hsame]
    exact hstill (by simp [Tasks.takes, hflight])
  | none =>
    have htakes : s.takes .dispatch = some transmit := by simp [Tasks.takes, htransmits, hflight]
    have hdispatch : s.dispatch = writeTransmit { s with
        taken := s.taken ++ [transmit], transmits := rest } transmit := by
      simp only [Tasks.dispatch, htransmits, hflight, Option.isSome_none, Bool.false_eq_true, if_false]
    have hqueue : s.transmits ++ Turn.dispatch.queued.toList = (s.takes .dispatch).toList ++ rest := by
      rw [htakes, htransmits]
      exact List.append_nil _
    have htaken : s.taken ++ [transmit] = s.taken ++ (s.takes .dispatch).toList := by
      rw [htakes]
      rfl
    have hhands : ∀ k, s.hands k .dispatch =
        if s.fate transmit = .handed k then some transmit else none := by
      intro k
      simp [Tasks.hands, htakes, Option.filter]
    have houtcome : s.outcome .dispatch =
        if s.fate transmit = .refused then some ⟨transmit, .error 1, none⟩ else none := by
      rw [Tasks.outcome, htakes]
      by_cases hfate : s.fate transmit = .refused <;> simp [Option.filter, hfate]
    rw [hdispatch]
    obtain ⟨hfate, heq⟩ | ⟨hfate, heq⟩ | ⟨k, c, hfate, hc, hadvance⟩ := writeTransmit_spec ar
      { s with taken := s.taken ++ [transmit], transmits := rest } transmit
    · rw [heq]
      have hfate : s.fate transmit = .sending := hfate
      exact turnSpec_tell .dispatcher (fun _ => ⟨nofun, nofun⟩) none (some transmit) _ rest
        (fun k => ⟨rfl, by simp [hhands, hfate], by simp [houtcome, hfate]⟩) htaken hqueue
        (fun _ h => .inr (htakes.trans h)) rfl (by simp [houtcome, hfate])
    · rw [heq]
      have hfate : s.fate transmit = .refused := hfate
      exact turnSpec_tell .dispatcher (fun _ => ⟨nofun, nofun⟩) _ s.inFlight _ rest
        (fun k => ⟨rfl, by simp [hhands, hfate], by simp [houtcome, hfate]⟩) htaken hqueue
        (fun _ => .inl) rfl (by simp [houtcome, hfate])
    · have hfate : s.fate transmit = .handed k := hfate
      refine hadvance.turnSpec hc ⟨rfl, ?_, ?_⟩ (fun j hj => ⟨rfl, ?_⟩) (fun o ho => ?_) htaken
        hqueue rfl
      · simp [hhands, hfate]
      · simp [houtcome, hfate]
      · simp [hhands, hfate, hj.symm]
      · simp [houtcome, hfate] at ho

end

/-! ## Any turn -/

/-- So is an accept. -/
theorem turnSpec_accept (ar : Arith) (s : Tasks) (remoteAddr : SocketAddr) :
    TurnSpec ar s (.accept remoteAddr) (s.accept remoteAddr) := by
  refine ⟨fun k => ⟨none, [], ?_⟩, (List.append_nil _).symm, List.append_nil _, fun _ => .inl,
    fun _ _ => .inl, ⟨[], (List.append_nil _).symm, List.append_nil _⟩, (List.append_nil _).symm⟩
  have hstill : (s.accept remoteAddr).connections[k]? = s.connections[k]? →
      LineStep ar k (s.line k) {} ((s.accept remoteAddr).line k) := by
    intro hsame
    have hline : (s.accept remoteAddr).line k = s.line k := by
      rw [Books.line, hsame]
      rfl
    rw [hline]
    exact .still
  rcases Nat.lt_trichotomy k s.connections.length with hlt | rfl | hgt
  · exact hstill (List.getElem?_append_left hlt)
  · have hnew : (s.accept remoteAddr).connections[s.connections.length]? =
        some ⟨s.nextAssociationId, remoteAddr, .spawned⟩ := List.getElem?_concat_length
    rw [Books.line, Books.line, hnew]
    exact .accepted (List.getElem?_eq_none le_rfl) _ rfl
  · apply hstill
    rw [List.getElem?_eq_none hgt.le, List.getElem?_eq_none]
    rw [Tasks.accept, List.length_append, List.length_singleton]
    exact hgt

/-- **What a turn does.** -/
theorem step_spec (ar : Arith) (s : Tasks) (turn : Turn) : TurnSpec ar s turn (s.step ar turn) := by
  have hsource : ∀ k, Source.dispatcher ≠ .reader k ∧ Source.dispatcher ≠ .writer k :=
    fun _ => ⟨nofun, nofun⟩
  cases turn with
  | transmit =>
    exact turnSpec_tell .dispatcher hsource none s.inFlight s.taken _ (fun k => ⟨rfl, rfl, rfl⟩)
      (List.append_nil _).symm rfl (fun _ => .inl) rfl rfl
  | dispatch => exact turnSpec_dispatch
  | udpSent =>
    simp only [Tasks.step, Tasks.udpSent]
    cases hflight : s.inFlight with
    | none =>
      exact turnSpec_still (fun _ => rfl) rfl rfl (by rw [Tasks.outcome, hflight]; rfl) rfl
    | some transmit =>
      exact turnSpec_tell .dispatcher hsource (some _) none s.taken s.transmits
        (fun k => ⟨rfl, rfl, by simp [Tasks.outcome, hflight]⟩) (List.append_nil _).symm
        (List.append_nil _) nofun rfl (by simp [Tasks.outcome, hflight]; rfl)
  | udpReceived =>
    simp only [Tasks.step, Tasks.udpReceived]
    split
    · exact turnSpec_tell .udpReader (fun _ => ⟨nofun, nofun⟩) (some _) s.inFlight s.taken
        s.transmits (fun k => ⟨rfl, rfl, rfl⟩) (List.append_nil _).symm (List.append_nil _)
        (fun _ => .inl) rfl rfl
    · exact turnSpec_still (fun _ => rfl) rfl rfl rfl rfl
  | accept remoteAddr => exact turnSpec_accept ar s remoteAddr
  | start | read | extract | readFailed | receiveRequest | written => exact turnSpec_connection rfl
  | consume =>
    refine ⟨fun k => ⟨none, [], .still⟩, (List.append_nil _).symm, List.append_nil _, fun _ => .inl,
      fun _ _ => .inl, ⟨[], (List.append_nil _).symm, ?_⟩, (List.append_nil _).symm⟩
    simp only [Tasks.receives, Tasks.step]
    cases s.channel <;> simp

end GmvPjsip.Io
