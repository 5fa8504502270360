import GmvPjsip.Io.Reports

/-!
# The streams of a connection

What a connection does in a run of all tasks, in any order and with any failure of the sockets.

* `History` records, next to the tasks, what was seen of their turns. `Faithful` says how the record
  and the tasks belong together, and `runHistory_faithful` that every run keeps it.
* `reader_refines_loop`: the reader reports what the sequential read loop `handleTcpStream` delivers
  for the chunks that were read from this connection, and the worker receives these reports in their
  order.
* `writer_in_order`: the writer writes whole messages for its own association, in the order in which
  they were put into the transmit queue, and completes them in that order; after a failure it writes
  nothing more.
-/

namespace GmvPjsip.Io

open GmvPjsip.Auth
open GmvPjsip.Framer

/-! ## The reader -/

variable {messages chunks : List Bytes} {fuel k : ℕ} {localAddr : SocketAddr} {reader : Reader}
    {c : Connection} {d : Doings}

section
variable {ar : Arith}

/-- Messages that were taken off a buffer one after the other, and what they left of it. -/
inductive TakenOff (ar : Arith) (buffer : Bytes) : List Bytes → Bytes → Prop
  | nil : TakenOff ar buffer [] buffer
  | snoc {messages : List Bytes} {rest message rest' : Bytes} (h : TakenOff ar buffer messages rest)
      (hnext : nextSipMessage ar rest = some (message, rest')) :
      TakenOff ar buffer (messages ++ [message]) rest'

/-- The extraction loop goes through the messages that were taken off. -/
theorem TakenOff.extractLoop {buffer : Bytes} {rest : Bytes} (h : TakenOff ar buffer messages rest)
    {found : List Bytes} {last : Bytes}
    (hrest : extractLoop ar fuel rest = some (found, last)) :
    ∃ fuel', extractLoop ar fuel' buffer = some (messages ++ found, last) := by
  induction h generalizing fuel found with
  | nil => exact ⟨fuel, hrest⟩
  | @snoc messages before message after h hnext ih =>
    rw [List.append_assoc]
    have hbefore : Framer.extractLoop ar (fuel + 1) before = some ([message] ++ found, last) := by
      rw [Framer.extractLoop, hnext]
      simp only [hrest]
      rfl
    exact ih hbefore

theorem readLoop_mono {fuel' : ℕ} (hff : fuel ≤ fuel') {st res : List Bytes × Bytes}
    (h : readLoop ar fuel st chunks = some res) :
    readLoop ar fuel' st chunks = some res := by
  induction chunks generalizing st with
  | nil => exact h
  | cons chunk chunks ih =>
    rw [readLoop] at h ⊢
    cases hextract : Framer.extractLoop ar fuel (st.2 ++ chunk) with
    | none =>
      rw [hextract] at h
      exact nomatch h
    | some found =>
      rw [hextract] at h
      rw [extractLoop_mono hff hextract]
      exact ih h

/-- One more read: the chunk is appended to the buffer, and the messages are taken off it. -/
theorem readLoop_concat {st st' : List Bytes × Bytes} {chunk : Bytes} {found : List Bytes}
    {last : Bytes}
    (h : readLoop ar fuel st chunks = some st')
    (hextract : extractLoop ar fuel (st'.2 ++ chunk) = some (found, last)) :
    readLoop ar fuel st (chunks ++ [chunk]) = some (st'.1 ++ found, last) := by
  induction chunks generalizing st with
  | nil =>
    obtain rfl := Option.some.inj h
    rw [List.nil_append, readLoop, hextract]
    rfl
  | cons first chunks ih =>
    rw [readLoop] at h
    rw [List.cons_append, readLoop]
    cases hfirst : Framer.extractLoop ar fuel (st.2 ++ first) with
    | none =>
      rw [hfirst] at h
      exact nomatch h
    | some found =>
      rw [hfirst] at h
      exact ih h

/-- What the reader has done with the chunks that it read: between two reads, what the read loop
delivers for them; while it takes messages off its buffer, what the loop delivers for the chunks
before the last one and the messages that were taken off since. -/
def Framed (ar : Arith) (chunks messages : List Bytes) : Stream → Prop
  | .running _ (.waiting buffer) _ =>
    ∃ fuel, handleTcpStream ar fuel chunks = some (messages, buffer)
  | .running _ (.extracting buffer) _ =>
    ∃ before chunk fuel delivered kept taken, chunks = before ++ [chunk] ∧
      handleTcpStream ar fuel before = some (delivered, kept) ∧
      TakenOff ar (kept ++ chunk) taken buffer ∧ messages = delivered ++ taken
  | .running _ .ended _ => ∃ fuel buffer, handleTcpStream ar fuel chunks = some (messages, buffer)
  | _ => chunks = [] ∧ messages = []

theorem Framed.rested {buffer : Bytes} {writer : Writer}
    (h : Framed ar chunks messages (.running localAddr (.extracting buffer) writer))
    (hnext : nextSipMessage ar buffer = none) :
    Framed ar chunks messages (.running localAddr (.waiting buffer) writer) := by
  obtain ⟨before, chunk, fuel, delivered, kept, taken, rfl, hbefore, htaken, rfl⟩ := h
  have hrest : extractLoop ar 1 buffer = some ([], buffer) := by
    rw [Framer.extractLoop, hnext]
  obtain ⟨fuel', hextract⟩ := htaken.extractLoop hrest
  rw [List.append_nil] at hextract
  exact ⟨max fuel fuel', readLoop_concat (readLoop_mono (le_max_left _ _) hbefore)
    (extractLoop_mono (le_max_right _ _) hextract)⟩

/-- What a reader reports does not depend on the writer. -/
theorem Framed.writer {writer : Writer}
    (h : Framed ar chunks messages (.running localAddr reader writer))
    (writer' : Writer) : Framed ar chunks messages (.running localAddr reader writer') := by
  cases reader <;> exact h

/-- The reader keeps to the read loop. -/
theorem StreamStep.framed {new : Stream} (h : StreamStep ar k c c.stream d new)
    (hframed : Framed ar chunks messages c.stream) :
    ∃ messages', c.reports messages ++ d.reader.toList = { c with stream := new }.reports messages' ∧
      Framed ar (chunks ++ d.chunk.toList) messages' new := by
  obtain ⟨association, remoteAddr, old⟩ := c
  cases h with
  | aborted => exact ⟨messages, rfl, (List.append_nil chunks).symm ▸ hframed⟩
  | started =>
    obtain ⟨rfl, rfl⟩ := hframed
    exact ⟨[], rfl, 0, rfl⟩
  | got chunk =>
    obtain ⟨fuel, hloop⟩ := hframed
    exact ⟨messages, by simp [Connection.reports], chunks, chunk, fuel, messages, _, [], rfl, hloop,
      .nil, (List.append_nil _).symm⟩
  | message hnext =>
    obtain ⟨before, chunk, fuel, delivered, kept, taken, rfl, hbefore, htaken, rfl⟩ := hframed
    exact ⟨delivered ++ (taken ++ [_]), by simp [Connection.reports], before, chunk, fuel, delivered,
      kept, _, List.append_nil _, hbefore, htaken.snoc hnext, rfl⟩
  | rested hnext =>
    exact ⟨messages, by simp [Connection.reports], (List.append_nil chunks).symm ▸ hframed.rested hnext⟩
  | closed =>
    obtain ⟨fuel, hloop⟩ := hframed
    exact ⟨messages, by simp [Connection.reports], fuel, _, (List.append_nil chunks).symm ▸ hloop⟩
  -- the others are steps of the writer
  | _ => exact ⟨messages, List.append_nil _, (List.append_nil chunks).symm ▸ hframed.writer _⟩

/-- What a reader has reported are the messages of the chunks that it read. -/
def Line.ReadsOn (ar : Arith) (l : Line) (chunks : List Bytes) : Prop :=
  match l.connection with
  | none => chunks = [] ∧ l.reader = []
  | some c => ∃ messages, l.reader = c.reports messages ∧ Framed ar chunks messages c.stream

/-- One turn. -/
theorem Line.ReadsOn.step {l l' : Line} (h : l.ReadsOn ar chunks) (hstep : LineStep ar k l d l') :
    l'.ReadsOn ar (chunks ++ d.chunk.toList) := by
  cases hstep with
  | still => exact (List.append_nil chunks).symm ▸ h
  | accepted hnone c hstream =>
    simp only [Line.ReadsOn, hnone] at h ⊢
    refine ⟨[], ?_, ?_⟩
    · rw [h.2, Connection.reports, hstream]
    · rw [hstream, h.1]
      exact ⟨rfl, rfl⟩
  | went hc hstep =>
    simp only [Line.ReadsOn, hc] at h ⊢
    obtain ⟨messages, hreports, hframed⟩ := h
    rw [hreports]
    exact hstep.framed hframed

end

/-! ## The writer -/

/-- The completion of a message that was written. -/
def SipTransmit.done (transmit : SipTransmit) : RuntimeIoCommand :=
  .completeSend transmit.sendId (.ok transmit.data.length)

/-- The completion of a message whose `write_all` failed. -/
def SipTransmit.failed (transmit : SipTransmit) : RuntimeIoCommand :=
  .completeSend transmit.sendId (.error 1)

/-- What the writer has done with the messages that it got, `written` and `rest`, and what it has
reported. While it runs, `rest` is what it still has to write. Once it ended, it has reported the
failure of the first message of `rest`, if there is one, and nothing about those behind it. -/
def Served (written rest : List SipTransmit) (said : List RuntimeIoCommand) : Stream → Prop
  | .running _ _ .ended =>
    said = written.map SipTransmit.done ++ (rest.take 1).map SipTransmit.failed
  | .running _ _ writer => rest = writer.pending ∧ said = written.map SipTransmit.done
  | _ => written = [] ∧ rest = [] ∧ said = []

/-- A writer that takes a message has not ended. -/
theorem Writer.ne_ended_of_trySend {transmit : SipTransmit} {writer writer' : Writer}
    (h : writer.trySend transmit = some writer') : writer ≠ .ended ∧ writer' ≠ .ended := by
  cases writer with
  | ended => exact absurd h.symm (Option.some_ne_none writer')
  | _ =>
    rw [Writer.trySend] at h
    split at h
    · obtain rfl := Option.some.inj h
      exact ⟨Writer.noConfusion, Writer.noConfusion⟩
    · exact absurd h.symm (Option.some_ne_none writer')

theorem served_running_iff {written rest : List SipTransmit} {said : List RuntimeIoCommand}
    {writer : Writer} (h : writer ≠ .ended) :
    Served written rest said (.running localAddr reader writer) ↔
      rest = writer.pending ∧ said = written.map SipTransmit.done := by
  cases writer with
  | ended => exact absurd rfl h
  | _ => exact Iff.rfl

/-- The message, if it was sent. -/
def Outcome.sent (o : Outcome) : Option SipTransmit :=
  match o.result with
  | .ok _ => some o.transmit
  | .error _ => none

/-- The writer keeps to its queue. -/
theorem StreamStep.served {ar : Arith} {new : Stream} (h : StreamStep ar k c c.stream d new)
    {written rest : List SipTransmit}
    {said : List RuntimeIoCommand} (hserved : Served written rest said c.stream) :
    ∃ rest', written ++ rest ++ d.handed.toList = written ++ (d.ended.bind Outcome.sent).toList ++ rest' ∧
      Served (written ++ (d.ended.bind Outcome.sent).toList) rest'
        (said ++ (d.ended.map Outcome.report).toList) new := by
  obtain ⟨association, remoteAddr, old⟩ := c
  have hreader : ∀ {localAddr reader reader' writer},
      Served written rest said (.running localAddr reader writer) →
        Served (written ++ []) rest (said ++ []) (.running localAddr reader' writer) := by
    intro localAddr reader reader' writer hserved
    rw [List.append_nil, List.append_nil]
    cases writer <;> exact hserved
  cases h with
  | aborted =>
    obtain ⟨rfl, rfl, rfl⟩ := hserved
    exact ⟨[], rfl, rfl, rfl, rfl⟩
  | started =>
    obtain ⟨rfl, rfl, rfl⟩ := hserved
    exact ⟨[], rfl, rfl, rfl⟩
  | got => exact ⟨rest, by simp, hreader hserved⟩
  | message => exact ⟨rest, by simp, hreader hserved⟩
  | rested => exact ⟨rest, by simp, hreader hserved⟩
  | closed => exact ⟨rest, by simp, hreader hserved⟩
  | handed htry =>
    obtain ⟨hwriter, hwriter'⟩ := Writer.ne_ended_of_trySend htry
    obtain ⟨rfl, rfl⟩ := (served_running_iff hwriter).mp hserved
    refine ⟨_, by simp [Writer.trySend_pending htry], (served_running_iff hwriter').mpr ⟨rfl, ?_⟩⟩
    simp
  | took =>
    obtain ⟨rfl, rfl⟩ := hserved
    exact ⟨_, by simp [Writer.pending], rfl, by simp⟩
  | retired =>
    obtain ⟨rfl, rfl⟩ := hserved
    exact ⟨[], by simp [Writer.pending], by simp [Served]⟩
  | wrote =>
    obtain ⟨rfl, rfl⟩ := hserved
    exact ⟨_, by simp [Writer.pending, Outcome.sent], rfl,
      by simp [Outcome.sent, Outcome.report, SipTransmit.done]⟩
  | @failed localAddr reader request requests =>
    obtain ⟨rfl, rfl⟩ := hserved
    exact ⟨request :: requests, by simp [Writer.pending, Outcome.sent],
      by simp [Served, Outcome.sent, Outcome.report, SipTransmit.failed]⟩

/-- What a writer has written and reported, of the messages that were handed to it. -/
def Line.WritesOn (l : Line) (handed written : List SipTransmit) : Prop :=
  match l.connection with
  | none => handed = [] ∧ written = [] ∧ l.writer = []
  | some c => ∃ rest, handed = written ++ rest ∧ Served written rest l.writer c.stream

/-- One turn. -/
theorem Line.WritesOn.step {ar : Arith} {l l' : Line} {handed written : List SipTransmit}
    (h : l.WritesOn handed written)
    (hstep : LineStep ar k l d l') :
    l'.WritesOn (handed ++ d.handed.toList) (written ++ (d.ended.bind Outcome.sent).toList) := by
  cases hstep with
  | still => simpa using h
  | accepted hnone c hstream =>
    simp only [Line.WritesOn, hnone] at h ⊢
    obtain ⟨rfl, rfl, hsaid⟩ := h
    refine ⟨[], rfl, ?_⟩
    rw [hstream]
    exact ⟨rfl, rfl, hsaid⟩
  | went hc hstep =>
    simp only [Line.WritesOn, hc] at h ⊢
    obtain ⟨rest, rfl, hserved⟩ := h
    exact hstep.served hserved

/-! ## Whole runs -/

/-- The tasks, and what was seen of their turns: the chunks that were read from each connection, the
messages that were handed to its writer, what became of the messages, the messages that were put into
the transmit queue, and the commands that the worker received. -/
structure History where
  tasks : Tasks
  chunks : ℕ → List Bytes
  handed : ℕ → List SipTransmit
  outcomes : List Outcome
  queued : List SipTransmit
  received : List RuntimeIoCommand

def History.init (capacity : ℕ) (udp : Bool) : History where
  tasks := .init capacity udp
  chunks _ := []
  handed _ := []
  outcomes := []
  queued := []
  received := []

def History.step (ar : Arith) (h : History) (turn : Turn) : History where
  tasks := h.tasks.step ar turn
  chunks k := h.chunks k ++ (h.tasks.reads k turn).toList
  handed k := h.handed k ++ (h.tasks.hands k turn).toList
  outcomes := h.outcomes ++ (h.tasks.outcome turn).toList
  queued := h.queued ++ turn.queued.toList
  received := h.received ++ (h.tasks.receives turn).toList

/-- What a schedule makes of the tasks, recorded. -/
def runHistory (ar : Arith) (capacity : ℕ) (udp : Bool) (schedule : List Turn) : History :=
  schedule.foldl (History.step ar) (.init capacity udp)

/-- The record is written and never read. -/
theorem runHistory_tasks (ar : Arith) (capacity : ℕ) (udp : Bool) (schedule : List Turn) :
    (runHistory ar capacity udp schedule).tasks = runTasks ar capacity udp schedule :=
  (List.foldl_hom History.tasks fun _ _ => rfl).symm

/-- The messages that the writer of a connection has written. -/
def History.written (h : History) (k : ℕ) : List SipTransmit :=
  (h.outcomes.filter fun o => o.connection = some k).filterMap Outcome.sent

/-- How the record and the tasks belong together. -/
structure Faithful (ar : Arith) (h : History) : Prop where
  accounted : Accounted h.tasks.toBooks
  spoken : Spoken h.tasks.toBooks
  reads : ∀ k, (h.tasks.line k).ReadsOn ar (h.chunks k)
  writes : ∀ k, (h.tasks.line k).WritesOn (h.handed k) (h.written k)
  /-- The messages of the transmit queue are taken in their order. -/
  queued : h.tasks.taken ++ h.tasks.transmits = h.queued
  handed : ∀ k, (h.handed k).Sublist h.tasks.taken
  /-- The commands of the channel are received in their order. -/
  received : h.received ++ h.tasks.channel = h.tasks.put
  /-- An entry of `writers` leads to a connection with that association, -/
  writers : ∀ a k, h.tasks.writers a = some k → (h.tasks.line k).association = some a
  /-- and what is handed to a writer is for the association of its connection. -/
  owned : ∀ k, ∀ t ∈ h.handed k, t.protocol ≠ .udp ∧ (h.tasks.line k).association = some t.associationId
  inFlight : ∀ t, h.tasks.inFlight = some t → t ∈ h.tasks.taken
  /-- An outcome is that of a message that was taken, and the connection that had it has the
  association of the message. -/
  outcomes : ∀ o ∈ h.outcomes, o.transmit ∈ h.tasks.taken ∧
    ∀ k, o.connection = some k → (h.tasks.line k).association = some o.transmit.associationId
  /-- The tasks try to report every outcome once, and nothing else as one. -/
  completions : h.tasks.completions = h.outcomes.filterMap fun o => o.report.completion

theorem faithful_init (ar : Arith) (capacity : ℕ) (udp : Bool) : Faithful ar (.init capacity udp) where
  accounted := accounted_init capacity udp
  spoken := spoken_init capacity udp
  reads _ := ⟨rfl, rfl⟩
  writes _ := ⟨rfl, rfl, rfl⟩
  queued := rfl
  handed _ := List.nil_sublist _
  received := rfl
  writers _ _ h := nomatch h
  owned _ _ h := nomatch h
  inFlight _ h := nomatch h
  outcomes _ h := nomatch h
  completions := rfl

section
variable {ar : Arith} {h : History} (hf : Faithful ar h)
include hf

/-- The message that a writer writes was handed to it. -/
theorem Faithful.writing {request : SipTransmit} {requests : List SipTransmit}
    (hstream : h.tasks.connections[k]?.map Connection.stream =
      some (.running localAddr reader (.writing request requests))) : request ∈ h.handed k := by
  obtain ⟨c, hc, hstream⟩ := Option.map_eq_some_iff.mp hstream
  have hwrites := hf.writes k
  simp only [Line.WritesOn, Books.line, hc] at hwrites
  obtain ⟨rest, hhanded, hserved⟩ := hwrites
  rw [hstream] at hserved
  rw [hhanded, hserved.1]
  exact List.mem_append_right _ List.mem_cons_self

/-- Where an outcome comes from. -/
theorem Faithful.outcome {turn : Turn} {o : Outcome} (ho : h.tasks.outcome turn = some o) :
    (o.transmit ∈ h.tasks.taken ∨ h.tasks.takes turn = some o.transmit) ∧ ∀ k, o.connection = some k →
        (h.tasks.line k).association = some o.transmit.associationId := by
  cases turn with
  | dispatch =>
    obtain ⟨t, ht, rfl⟩ := Option.map_eq_some_iff.mp ho
    exact ⟨.inr (Option.filter_eq_some_iff.mp ht).1, fun k hk => absurd hk.symm (Option.some_ne_none k)⟩
  | udpSent =>
    obtain ⟨t, ht, rfl⟩ := Option.map_eq_some_iff.mp ho
    exact ⟨.inl (hf.inFlight t ht), fun k hk => absurd hk.symm (Option.some_ne_none k)⟩
  | written i =>
    rw [Tasks.outcome] at ho
    split at ho
    · next hstream =>
      obtain rfl := Option.some.inj ho
      have hhanded := hf.writing hstream
      refine ⟨.inl ((hf.handed i).subset hhanded), fun k hk => ?_⟩
      obtain rfl := Option.some.inj hk
      exact (hf.owned i _ hhanded).2
    · exact absurd ho.symm (Option.some_ne_none o)
  | _ => exact absurd ho.symm (Option.some_ne_none o)

/-- One turn. -/
theorem Faithful.step (turn : Turn) : Faithful ar (h.step ar turn) := by
  have hspec := step_spec ar h.tasks turn
  obtain ⟨sent, hput, hchannel⟩ := hspec.channel
  have hold : ∀ {t}, t ∈ h.tasks.taken → t ∈ (h.tasks.step ar turn).taken := by
    intro t ht
    rw [hspec.taken]
    exact List.mem_append_left _ ht
  have hnew : ∀ {t}, h.tasks.takes turn = some t → t ∈ (h.tasks.step ar turn).taken := by
    intro t ht
    rw [hspec.taken, ht]
    exact List.mem_append_right _ (List.mem_singleton_self t)
  have hkeeps : ∀ {k a}, (h.tasks.line k).association = some a →
      ((h.tasks.step ar turn).line k).association = some a := by
    intro k a ha
    obtain ⟨said, dropped, hline⟩ := hspec.line k
    exact hline.keeps ha
  refine ⟨hf.accounted.move (step_move ar _ turn), hf.spoken.move (step_move ar _ turn),
    fun k => ?_, fun k => ?_, ?_, fun k => ?_, ?_, fun a k hk => ?_, fun k t ht => ?_,
    fun t ht => ?_, fun o ho => ?_, ?_⟩
  · obtain ⟨said, dropped, hline⟩ := hspec.line k
    exact (hf.reads k).step hline
  · obtain ⟨said, dropped, hline⟩ := hspec.line k
    have hwrites := (hf.writes k).step hline
    have hwritten : (h.step ar turn).written k = h.written k ++
        (((h.tasks.outcome turn).filter fun o => o.connection = some k).bind Outcome.sent).toList := by
      rw [History.written, History.step, List.filter_append, List.filterMap_append, History.written]
      cases h.tasks.outcome turn with
      | none => rfl
      | some o =>
        by_cases ho : o.connection = some k
        · cases hsent : o.sent <;> simp [ho, hsent, Option.filter]
        · simp [ho, Option.filter]
    rw [hwritten]
    exact hwrites
  · simp only [History.step]
    rw [hspec.taken, List.append_assoc, ← hspec.transmits, ← List.append_assoc, hf.queued]
  · simp only [History.step]
    rw [hspec.taken]
    refine (hf.handed k).append ?_
    unfold Tasks.hands
    cases h.tasks.takes turn with
    | none => exact List.Sublist.refl _
    | some t => by_cases ht : h.tasks.fate t = .handed k <;> simp [Option.filter, ht]
  · simp only [History.step]
    rw [List.append_assoc, ← hchannel, ← List.append_assoc, hf.received, hput]
  · apply hkeeps
    rcases hspec.writers a k hk with hk | ⟨c, hc, rfl⟩
    · exact hf.writers a k hk
    · exact congrArg (Option.map Connection.associationId) hc
  · rcases List.mem_append.mp ht with ht | ht
    · exact ⟨(hf.owned k t ht).1, hkeeps (hf.owned k t ht).2⟩
    · have hfate := (Option.filter_eq_some_iff.mp (Option.mem_toList.mp ht)).2
      obtain ⟨hprotocol, hk⟩ := fate_handed (of_decide_eq_true hfate)
      exact ⟨hprotocol, hkeeps (hf.writers _ k hk)⟩
  · rcases hspec.inFlight t ht with ht | ht
    · exact hold (hf.inFlight t ht)
    · exact hnew ht
  · rcases List.mem_append.mp ho with ho | ho
    · obtain ⟨htaken, hconnection⟩ := hf.outcomes o ho
      exact ⟨hold htaken, fun k hk => hkeeps (hconnection k hk)⟩
    · obtain ⟨htaken, hconnection⟩ := hf.outcome (Option.mem_toList.mp ho)
      exact ⟨htaken.elim hold hnew, fun k hk => hkeeps (hconnection k hk)⟩
  · simp only [History.step]
    rw [hspec.completions, hf.completions, List.filterMap_append]
    cases h.tasks.outcome turn <;> rfl

/-- What the reader of a connection reported. -/
theorem Faithful.reported (hc : h.tasks.connections[k]? = some c) :
    ∃ messages, Framed ar (h.chunks k) messages c.stream ∧ h.tasks.reported k = c.reports messages := by
  have hreads := hf.reads k
  simp only [Line.ReadsOn, Books.line, hc] at hreads
  exact hreads.imp fun _ => And.symm

/-- If nothing is lost, then the worker receives what a reader reports. -/
theorem Faithful.delivered (hfew : h.tasks.connections.length < 2 ^ 64)
    (hc : h.tasks.connections[k]? = some c) (hlost : h.tasks.lost = []) :
    ((h.received ++ h.tasks.channel).filter fun command =>
      command.association = some c.associationId) = h.tasks.reported k := by
  rw [hf.received, hf.spoken.put_eq hfew hc, List.filter_eq_self.mpr]
  · rfl
  · intro a ha
    by_contra hfull
    have hmem : a.command ∈ h.tasks.lost :=
      List.mem_map_of_mem (List.mem_filter.mpr ⟨List.mem_of_mem_filter ha, by simpa using hfull⟩)
    rw [hlost] at hmem
    exact absurd hmem List.not_mem_nil

/-- Any turns. -/
theorem Faithful.steps (turns : List Turn) : Faithful ar (turns.foldl (History.step ar) h) := by
  induction turns generalizing h with
  | nil => exact hf
  | cons turn turns ih => exact ih (hf.step turn)

end

/-- Every run keeps to its record. -/
theorem runHistory_faithful (ar : Arith) (capacity : ℕ) (udp : Bool) (schedule : List Turn) :
    Faithful ar (runHistory ar capacity udp schedule) :=
  (faithful_init ar capacity udp).steps schedule

/-- The message is for the writer of a connection. -/
def Connection.owns (c : Connection) (transmit : SipTransmit) : Bool :=
  transmit.protocol ≠ .udp ∧ transmit.associationId = c.associationId

/-- **The reader of a connection is the sequential read loop.** Over any schedule of all tasks, any
failures of the sockets and any capacity of the channel: what the reader of a connection has
reported are the messages that `handle_tcp_stream` delivers for the chunks that were read from this
connection, and at the end the close. What the worker receives about the connection are those of these
reports that were accepted, each once and in their order, and a report was accepted exactly if the channel
had room at the turn at which the reader made it. -/
theorem reader_refines_loop (ar : Arith) (capacity : ℕ) (udp : Bool) (schedule : List Turn)
    (h : History) (hrun : runHistory ar capacity udp schedule = h)
    (hfew : h.tasks.connections.length < 2 ^ 64) (k : ℕ) (c : Connection)
    (hc : h.tasks.connections[k]? = some c) :
    h.tasks = runTasks ar capacity udp schedule ∧
    ∃ messages, Framed ar (h.chunks k) messages c.stream ∧ h.tasks.reported k = c.reports messages ∧
      ((h.received ++ h.tasks.channel).filter fun command =>
          command.association = some c.associationId) =
        ((h.tasks.log.filter fun a => a.source = .reader k).filter Attempt.accepted).map
          Attempt.command ∧
      ∀ a ∈ h.tasks.log, a.source = .reader k → ∃ earlier turn later,
        schedule = earlier ++ turn :: later ∧ a ∈ (runTasks ar capacity udp earlier).attempts ar turn ∧
          a.accepted = decide ((runTasks ar capacity udp earlier).channel.length < capacity) := by
  subst hrun
  have hf := runHistory_faithful ar capacity udp schedule
  obtain ⟨messages, hframed, hreported⟩ := hf.reported hc
  refine ⟨runHistory_tasks .., messages, hframed, hreported, ?_, fun a ha _ => ?_⟩
  · rw [hf.received, hf.spoken.put_eq hfew hc]
  · rw [runHistory_tasks] at ha
    exact mem_log_iff.mp ha

/-- A message comes in two chunks with the start of another one, and the worker receives it. -/
def sampleReads : List Turn :=
  [.accept (sampleHost 1), .start 0 (some (sampleHost 2)), .read 0 [65, 13], .extract 0,
    .transmit (sampleTransmit 1 .udp), .read 0 [10, 13, 10, 66], .dispatch, .extract 0, .consume]

theorem reader_refines_loop_sample :
    ∃ c messages, (runTasks .wrapping 8 false sampleReads).connections[0]? = some c ∧
      c.stream = .running (sampleHost 2) (.extracting [66]) (.idle []) ∧
      Framed .wrapping [[65, 13], [10, 13, 10, 66]] messages c.stream ∧
      (runTasks .wrapping 8 false sampleReads).reported 0 = c.reports messages ∧
      c.reports messages = [.receive 1 .tcp (sampleHost 2) (sampleHost 1) [65, 13, 10, 13, 10]] := by
  obtain ⟨-, messages, hframed, hreported, -, -⟩ :=
    reader_refines_loop .wrapping 8 false sampleReads _ rfl (by decide +kernel) 0
      ⟨1, sampleHost 1, .running (sampleHost 2) (.extracting [66]) (.idle [])⟩ (by decide +kernel)
  refine ⟨_, messages, by decide +kernel, rfl, hframed, hreported, ?_⟩
  rw [← hreported]
  rfl

/-- **The writer of a connection keeps the order.** Over any schedule of all tasks and any failures
of the sockets: the messages that were written to a connection, followed by those that its writer
still has to write, are messages for its own association in the order in which they were put into
the transmit queue. Every message that was written has been reported with its length, in the same
order; after a failed write the writer has reported that failure, and neither written nor reported
anything behind it. -/
theorem writer_in_order (ar : Arith) (capacity : ℕ) (udp : Bool) (schedule : List Turn)
    (h : History) (hrun : runHistory ar capacity udp schedule = h) (k : ℕ) (c : Connection)
    (hc : h.tasks.connections[k]? = some c) :
    h.tasks = runTasks ar capacity udp schedule ∧
    ∃ rest, (h.written k ++ rest).Sublist (h.queued.filter c.owns) ∧
      Served (h.written k) rest (h.tasks.said (.writer k)) c.stream := by
  subst hrun
  have hf := runHistory_faithful ar capacity udp schedule
  have hwrites := hf.writes k
  simp only [Line.WritesOn, Books.line, hc] at hwrites
  obtain ⟨rest, hhanded, hserved⟩ := hwrites
  refine ⟨runHistory_tasks .., rest, ?_, hserved⟩
  have hall : ((runHistory ar capacity udp schedule).handed k).filter c.owns =
      (runHistory ar capacity udp schedule).handed k := by
    refine List.filter_eq_self.mpr fun transmit hmem => ?_
    obtain ⟨hprotocol, hassociation⟩ := hf.owned k transmit hmem
    simp only [Line.association, Books.line, hc, Option.map_some, Option.some.injEq] at hassociation
    exact decide_eq_true ⟨hprotocol, hassociation.symm⟩
  rw [← hhanded, ← hall, ← hf.queued]
  exact ((hf.handed k).trans (List.sublist_append_left _ _)).filter _

/-- Two messages are written, and the third one fails. -/
def sampleWrites : List Turn :=
  sampleTurns ++ [.transmit (sampleTransmit 3 .tcp), .dispatch, .written 0 true, .receiveRequest 0,
    .written 0 true, .receiveRequest 0, .written 0 false]

theorem writer_in_order_sample :
    ∃ c rest, (runTasks .exact 8 true sampleWrites).connections[0]? = some c ∧
      ([sampleTransmit 1 .tcp, sampleTransmit 2 .tcp] ++ rest).Sublist
        ((runHistory .exact 8 true sampleWrites).queued.filter c.owns) ∧
      Served [sampleTransmit 1 .tcp, sampleTransmit 2 .tcp] rest
        ((runTasks .exact 8 true sampleWrites).said (.writer 0)) c.stream := by
  obtain ⟨-, rest, hsublist, hserved⟩ := writer_in_order .exact 8 true sampleWrites _ rfl 0
    ⟨1, sampleHost 1, .running (sampleHost 2) (.waiting []) .ended⟩ (by decide +kernel)
  have hwritten : (runHistory .exact 8 true sampleWrites).written 0 =
      [sampleTransmit 1 .tcp, sampleTransmit 2 .tcp] := by decide +kernel
  rw [hwritten] at hsublist hserved
  exact ⟨_, rest, by decide +kernel, hsublist, hserved⟩

end GmvPjsip.Io
