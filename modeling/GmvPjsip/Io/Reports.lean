import GmvPjsip.Io.Turns
import Mathlib.Data.List.Induction

/-!
# What the tasks report

A message that was taken from the transmit queue has to be completed, and a connection that ended has
to be closed, by a command in the channel.

* `Accounted` says where a message that was taken is: still with a task, reported, or dropped with
  the queue of a writer that failed. `Spoken` says what the reader of a connection has reported.
* `mem_lost_iff` and `dropped_eq_nil_iff` say at which turns of a schedule reports are lost and requests
  dropped: at those that find the channel full, and at those where a writer fails with a queue.
* `reports_complete_iff`: when all is drained, every message was completed in the channel exactly
  once if and only if no completion met a full channel and no writer failed with messages in its
  queue. A connection whose reader ended has one close, behind all its messages, if and only if the
  close did not meet a full channel.
* `reports_lost`: each of the three losses happens.
-/

namespace GmvPjsip.Io

open GmvPjsip.Auth
open GmvPjsip.Framer

/-! ## Where a message is -/

/-- The requests that the writer of a connection has not answered. -/
def Stream.pending : Stream → List SipTransmit
  | .running _ _ writer => writer.pending
  | _ => []

/-- The messages that were taken and are still with a task. -/
def Books.outstanding (b : Books) : List SipTransmit :=
  b.inFlight.toList ++ b.connections.flatMap fun c => c.stream.pending

/-- The command completes this send. -/
def RuntimeIoCommand.completes (sendId : ℕ) : RuntimeIoCommand → Bool
  | .receive .. => false
  | .completeSend id _ => id = sendId
  | .transportClosed .. => false

/-- The message has this send id. -/
def SipTransmit.sends (sendId : ℕ) (transmit : SipTransmit) : Bool := transmit.sendId = sendId

/-- A completion is that of its message. -/
theorem countP_completes (source : Source) (transmit : SipTransmit) (result : Except Int ℕ)
    (accepted : Bool) (sendId : ℕ) :
    [(⟨source, .completeSend transmit.sendId result, accepted⟩ : Attempt)].countP
      (fun a => a.command.completes sendId) = [transmit].countP (SipTransmit.sends sendId) := rfl

/-- Every message that was taken is with a task, was reported, or was dropped. -/
def Accounted (b : Books) : Prop :=
  ∀ sendId, b.taken.countP (SipTransmit.sends sendId) =
    b.outstanding.countP (SipTransmit.sends sendId) +
      b.log.countP (fun a => a.command.completes sendId) + b.dropped.countP (SipTransmit.sends sendId)

variable {k : ℕ} {ar : Arith} {c : Connection} {d : Doings} {room : Bool} {drops : List SipTransmit}
    {b b' : Books} {schedule : List Turn}

/-- What changes in one element changes in the whole. -/
theorem countP_flatMap_modify {α β : Type} (p : β → Bool) (f : α → List β) (g : α → α) {c : α} :
    ∀ {l : List α} {k : ℕ}, l[k]? = some c → ((l.modify k g).flatMap f).countP p + (f c).countP p =
        (l.flatMap f).countP p + (f (g c)).countP p := by
  intro l
  induction l with
  | nil => intro k hk; exact nomatch hk
  | cons a l ih =>
    intro k hk
    cases k with
    | zero =>
      obtain rfl : a = c := Option.some.inj hk
      simp only [List.modify_zero_cons, List.flatMap_cons, List.countP_append]
      omega
    | succ k =>
      have hl := ih hk
      simp only [List.modify_succ_cons, List.flatMap_cons, List.countP_append]
      omega

/-- **A stream loses no message**: what its writer had and what it gets, it still has, or reports, or
drops. -/
theorem StreamStep.conserves {old new : Stream} (h : StreamStep ar k c old d new) (room : Bool)
    (sendId : ℕ) :
    old.pending.countP (SipTransmit.sends sendId) + d.handed.toList.countP (SipTransmit.sends sendId) =
      new.pending.countP (SipTransmit.sends sendId) +
        (d.attempts k room).countP (fun a => a.command.completes sendId) +
        d.dropped.countP (SipTransmit.sends sendId) := by
  cases h with
  | handed htry => simp [Stream.pending, Writer.trySend_pending htry, Doings.attempts]
  | wrote | failed =>
    simp [Stream.pending, Writer.pending, Doings.attempts, Outcome.report, List.countP_cons,
      SipTransmit.sends, RuntimeIoCommand.completes, Nat.add_comm]
  | _ => simp [Stream.pending, Writer.pending, Doings.attempts, RuntimeIoCommand.completes]

/-- A move loses no message. -/
theorem Accounted.move (h : Accounted b) (hmove : Move room b drops b') : Accounted b' := by
  intro sendId
  have hb := h sendId
  cases hmove with
  | still => exact hb
  | sending transmit hflight | sent hflight result =>
    simp only [Books.report, Books.outstanding, hflight, Option.toList_none, Option.toList_some,
      List.countP_append, List.countP_nil, countP_completes] at hb ⊢
    omega
  | refused =>
    simp only [Books.report, Books.outstanding, List.countP_append, countP_completes] at hb ⊢
    omega
  | datagram =>
    simpa [Books.report, Books.outstanding, RuntimeIoCommand.completes] using hb
  | accepted => simpa [Books.outstanding, Stream.pending] using hb
  | @went _ k c d stream hc hstep =>
    have hmoved := countP_flatMap_modify (SipTransmit.sends sendId)
      (fun c : Connection => c.stream.pending) (fun c => { c with stream := stream }) hc
    have hstep := hstep.conserves room sendId
    simp only [Books.outstanding, Books.setStream, List.countP_append] at hb hmoved ⊢
    omega

/-! ## What the reader of a connection reports -/

/-- The association a command is about. -/
def RuntimeIoCommand.association : RuntimeIoCommand → Option ℕ
  | .receive associationId .. => some associationId
  | .completeSend .. => none
  | .transportClosed associationId .. => some associationId

/-- What the reader of a connection has reported: its messages, and the close if it ended. -/
def Connection.reports (c : Connection) (messages : List Bytes) : List RuntimeIoCommand :=
  match c.stream with
  | .running localAddr reader _ =>
    messages.map (.receive c.associationId .tcp localAddr c.remoteAddr) ++
      if reader = .ended then [.transportClosed c.associationId .tcp localAddr c.remoteAddr 1]
      else []
  | _ => []

/-- The reports of a connection carry its association. -/
theorem Connection.association_of_mem {messages : List Bytes} {command : RuntimeIoCommand}
    (h : command ∈ c.reports messages) :
    command.association = some c.associationId := by
  unfold Connection.reports at h
  cases hstream : c.stream with
  | running =>
    simp only [hstream] at h
    rcases List.mem_append.mp h with h | h
    · obtain ⟨message, -, rfl⟩ := List.mem_map.mp h
      rfl
    · split at h
      · rw [List.mem_singleton.mp h]
        rfl
      · exact nomatch h
  | _ =>
    simp only [hstream] at h
    exact nomatch h

/-- A stream adds to the reports of its connection what its reader reports. -/
theorem StreamStep.reports {old new : Stream} (h : StreamStep ar k c old d new)
    (messages : List Bytes) :
    ∃ messages', { c with stream := new }.reports messages' =
      { c with stream := old }.reports messages ++ d.reader.toList := by
  cases h with
  | @message _ _ message => exact ⟨messages ++ [message], by simp [Connection.reports]⟩
  | started => exact ⟨[], by simp [Connection.reports]⟩
  | _ => exact ⟨messages, by simp [Connection.reports]⟩

/-- The attempts of a reader among those of a connection. -/
theorem Doings.reader_attempts (d : Doings) (k i : ℕ) (room : Bool) :
    ((d.attempts k room).filter fun a => a.source = .reader i).map Attempt.command =
      if k = i then d.reader.toList else [] := by
  obtain ⟨chunk, handed, ended, reader, dropped⟩ := d
  cases ended <;> cases reader <;> by_cases h : k = i <;> simp [Doings.attempts, h]

/-- The attempts of the reader of a connection. -/
def Books.reported (b : Books) (k : ℕ) : List RuntimeIoCommand :=
  (b.log.filter fun a => a.source = .reader k).map Attempt.command

/-- Every reader has reported its messages in order, and its end last; the other tasks report nothing
about a connection. Connections are numbered from 1, modulo `2 ^ 64`. -/
structure Spoken (b : Books) : Prop where
  reported : ∀ k, ∃ messages, b.reported k = b.connections[k]?.elim [] fun c => c.reports messages
  others : ∀ a ∈ b.log, (∃ k, a.source = .reader k) ∨ a.command.association.getD 0 = 0
  next : b.nextAssociationId = u64 (b.connections.length + 1)
  numbered : ∀ k c, b.connections[k]? = some c → c.associationId = u64 (k + 1)

section
variable {b : Books} (h : Spoken b)
include h

/-- Nothing that a reader reads or reports is changed. -/
theorem Spoken.congr (hconnections : b'.connections = b.connections)
    (hnext : b'.nextAssociationId = b.nextAssociationId) (hlog : b'.log = b.log) : Spoken b' := by
  refine ⟨?_, ?_, ?_, ?_⟩
  · rw [hconnections]
    unfold Books.reported
    rw [hlog]
    exact h.reported
  · rw [hlog]
    exact h.others
  · rw [hconnections, hnext]
    exact h.next
  · rw [hconnections]
    exact h.numbered

/-- A task that is not the reader of a connection reports something. -/
theorem Spoken.report (source : Source) (command : RuntimeIoCommand) (accepted : Bool)
    (hsource : ∀ k, source ≠ .reader k) (hcommand : command.association.getD 0 = 0) :
    Spoken (b.report source command accepted) := by
  refine ⟨fun k => ?_, fun a ha => ?_, h.next, h.numbered⟩
  · have hsame : (b.report source command accepted).reported k = b.reported k := by
      simp [Books.reported, Books.report, List.filter_append, hsource k]
    rw [hsame]
    exact h.reported k
  · rcases List.mem_append.mp ha with ha | ha
    · exact h.others a ha
    · obtain rfl := List.mem_singleton.mp ha
      exact .inr hcommand

/-- The stream of a connection goes on. -/
theorem Spoken.went {stream : Stream} (hc : b.connections[k]? = some c)
    (hstep : StreamStep ar k c c.stream d stream) (room : Bool) :
    Spoken { b.setStream k stream with log := b.log ++ d.attempts k room } := by
  have hget : ∀ i, (b.setStream k stream).connections[i]? =
      if i = k then some { c with stream := stream } else b.connections[i]? := by
    intro i
    rw [Books.setStream, List.getElem?_modify]
    by_cases hi : i = k
    · subst hi
      simp [hc]
    · simp [hi, Ne.symm hi]
  refine ⟨fun i => ?_, fun a ha => ?_, ?_, fun i c' hc' => ?_⟩
  · obtain ⟨messages, hmessages⟩ := h.reported i
    simp only [Books.reported, List.filter_append, List.map_append, hget, d.reader_attempts] at hmessages ⊢
    rw [hmessages]
    by_cases hi : i = k
    · obtain ⟨messages', hmessages'⟩ := hstep.reports messages
      rw [if_pos hi.symm, if_pos hi, hi, hc]
      exact ⟨messages', hmessages'.symm⟩
    · rw [if_neg (Ne.symm hi), if_neg hi]
      exact ⟨messages, List.append_nil _⟩
  · rcases List.mem_append.mp ha with hold | hnew
    · exact h.others a hold
    rcases List.mem_append.mp hnew with hreader | hwriter
    · obtain ⟨command, -, rfl⟩ := List.mem_map.mp hreader
      exact .inl ⟨k, rfl⟩
    · obtain ⟨o, -, rfl⟩ := List.mem_map.mp hwriter
      exact .inr rfl
  · simp only [Books.setStream, List.length_modify]
    exact h.next
  · rw [hget] at hc'
    by_cases hi : i = k
    · rw [if_pos hi] at hc'
      obtain rfl := Option.some.inj hc'
      exact hi ▸ h.numbered k c hc
    · rw [if_neg hi] at hc'
      exact h.numbered i c' hc'

/-- A new connection has said nothing yet. -/
theorem Spoken.accept (remoteAddr : SocketAddr) : Spoken { b with
    nextAssociationId := u64 (b.nextAssociationId + 1)
    connections := b.connections ++ [⟨b.nextAssociationId, remoteAddr, .spawned⟩] } := by
  refine ⟨fun k => ?_, h.others, ?_, fun k c hc => ?_⟩
  · obtain ⟨messages, hmessages⟩ := h.reported k
    refine ⟨messages, hmessages.trans ?_⟩
    rcases Nat.lt_or_ge k b.connections.length with hlt | hge
    · rw [List.getElem?_append_left hlt]
    · -- A connection that was not accepted yet, or the new one: neither has reported anything.
      rw [List.getElem?_eq_none hge, List.getElem?_append_right hge]
      cases k - b.connections.length <;> rfl
  · simp only [List.length_append, List.length_singleton]
    rw [h.next, u64_u64_succ]
  · rcases Nat.lt_or_ge k b.connections.length with hlt | hge
    · rw [List.getElem?_append_left hlt] at hc
      exact h.numbered k c hc
    · obtain ⟨hk, -⟩ := List.getElem?_eq_some_iff.mp hc
      rw [List.length_append, List.length_singleton] at hk
      obtain rfl : k = b.connections.length := by omega
      rw [List.getElem?_concat_length] at hc
      obtain rfl := Option.some.inj hc
      exact h.next

end

/-- A move keeps to what the readers have reported. -/
theorem Spoken.move (h : Spoken b) (hmove : Move room b drops b') : Spoken b' := by
  cases hmove with
  | still => exact h
  | sending => exact h.congr rfl rfl rfl
  | refused transmit =>
    have htaken : Spoken { b with taken := b.taken ++ [transmit] } := h.congr rfl rfl rfl
    exact htaken.report _ _ _ (fun _ => nofun) rfl
  | sent =>
    have hidle : Spoken { b with inFlight := none } := h.congr rfl rfl rfl
    exact hidle.report _ _ _ (fun _ => nofun) rfl
  | datagram => exact h.report _ _ _ (fun _ => nofun) rfl
  | accepted remoteAddr => exact h.accept remoteAddr
  | went hc hstep => exact (h.went hc hstep room).congr rfl rfl rfl

/-! ## Main result -/

/-- Nothing was taken, so nothing is to be accounted for. -/
theorem accounted_init (capacity : ℕ) (udp : Bool) : Accounted (Tasks.init capacity udp).toBooks :=
  fun _ => rfl

/-- Nothing was said. -/
theorem spoken_init (capacity : ℕ) (udp : Bool) : Spoken (Tasks.init capacity udp).toBooks :=
  ⟨fun _ => ⟨[], rfl⟩, nofun, rfl, nofun⟩

/-- What every move keeps, a run keeps. -/
theorem runTasks_invariant {P : Books → Prop} (hmove : ∀ {room drops b b'}, P b → Move room b drops b' → P b')
    (ar : Arith) (capacity : ℕ) (udp : Bool) (hinit : P (Tasks.init capacity udp).toBooks)
    (schedule : List Turn) : P (runTasks ar capacity udp schedule).toBooks := by
  unfold runTasks
  induction schedule using List.reverseRecOn with
  | nil => exact hinit
  | append_singleton schedule turn ih =>
    rw [List.foldl_append]
    exact hmove ih (step_move ar _ turn)

/-- The commands that met a full channel. -/
def Books.lost (b : Books) : List RuntimeIoCommand :=
  (b.log.filter fun a => !a.accepted).map Attempt.command

/-! ## At which turns reports are lost -/

/-- What a turn tries to put into the channel. -/
def Tasks.attempts (ar : Arith) (s : Tasks) (turn : Turn) : List Attempt :=
  (s.step ar turn).log.drop s.log.length

/-- What a move adds to the log is accepted exactly if there is room. -/
theorem Move.log (h : Move room b drops b') :
    ∃ attempts, b'.log = b.log ++ attempts ∧ ∀ a ∈ attempts, a.accepted = room := by
  cases h with
  | still | sending | accepted =>
    exact ⟨[], (List.append_nil _).symm, fun _ ha => absurd ha List.not_mem_nil⟩
  | refused | sent | datagram => exact ⟨[_], rfl, fun a ha => by rw [List.mem_singleton.mp ha]⟩
  | went =>
    refine ⟨_, rfl, fun a ha => ?_⟩
    rcases List.mem_append.mp ha with ha | ha <;> obtain ⟨_, -, rfl⟩ := List.mem_map.mp ha <;> rfl

/-- The channel keeps its capacity, and a move drops what it drops. -/
theorem Move.kept_dropped
    (h : Move room b drops b') : b'.capacity = b.capacity ∧ b'.dropped = b.dropped ++ drops := by
  cases h with
  | went => exact ⟨rfl, rfl⟩
  | _ => exact ⟨rfl, (List.append_nil _).symm⟩

section
variable {ar : Arith} {capacity : ℕ} {udp : Bool}

/-- What is noted in a run was noted at one of its turns. -/
theorem mem_runTasks_iff {α : Type} (notes : Tasks → List α) {adds : Tasks → Turn → List α}
    (hinit : notes (Tasks.init capacity udp) = [])
    (hstep : ∀ s turn, notes (s.step ar turn) = notes s ++ adds s turn) (schedule : List Turn) (x : α) :
    x ∈ notes (runTasks ar capacity udp schedule) ↔ ∃ earlier turn later,
      schedule = earlier ++ turn :: later ∧ x ∈ adds (runTasks ar capacity udp earlier) turn := by
  induction schedule using List.reverseRecOn with
  | nil =>
    refine iff_of_false (hinit ▸ List.not_mem_nil) ?_
    rintro ⟨earlier, turn, later, hnil, -⟩
    exact List.append_ne_nil_of_right_ne_nil _ (List.cons_ne_nil _ _) hnil.symm
  | append_singleton schedule turn ih =>
    have hlast : runTasks ar capacity udp (schedule ++ [turn]) =
        (runTasks ar capacity udp schedule).step ar turn := by
      rw [runTasks, List.foldl_append]
      rfl
    rw [hlast, hstep, List.mem_append, ih]
    constructor
    · rintro (⟨earlier, turn', later, rfl, hx⟩ | hx)
      · exact ⟨earlier, turn', later ++ [turn], by simp, hx⟩
      · exact ⟨schedule, turn, [], rfl, hx⟩
    · rintro ⟨earlier, turn', later, hsplit, hx⟩
      -- the turn is the last one, or it belongs to the schedule in front of that
      rcases List.eq_nil_or_concat later with rfl | ⟨later', last, rfl⟩
      · obtain ⟨rfl, heq⟩ := List.append_inj' hsplit rfl
        obtain rfl := (List.cons.inj heq).1
        exact Or.inr hx
      · rw [List.concat_eq_append, ← List.cons_append, ← List.append_assoc] at hsplit
        exact Or.inl ⟨earlier, turn', later', (List.append_inj' hsplit rfl).1, hx⟩

/-- The channel keeps its capacity. -/
theorem runTasks_capacity (schedule : List Turn) :
    (runTasks ar capacity udp schedule).capacity = capacity := by
  induction schedule using List.reverseRecOn with
  | nil => rfl
  | append_singleton schedule turn ih =>
    rw [runTasks, List.foldl_append]
    exact (step_move ar _ turn).kept_dropped.1.trans ih

/-- A turn appends its attempts to the log, and each finds the channel as the turn does. -/
theorem step_log (s : Tasks) (turn : Turn) : (s.step ar turn).log = s.log ++ s.attempts ar turn ∧
      ∀ a ∈ s.attempts ar turn, a.accepted = decide (s.channel.length < s.capacity) := by
  obtain ⟨attempts, hlog, haccepted⟩ := (step_move ar s turn).log
  have hattempts : s.attempts ar turn = attempts := by
    rw [Tasks.attempts, hlog, List.drop_left]
  rw [hattempts]
  exact ⟨hlog, haccepted⟩

/-- **Where the attempts of a run were made**: at a turn of the schedule, and accepted exactly if the
channel had room then. -/
theorem mem_log_iff {a : Attempt} :
    a ∈ (runTasks ar capacity udp schedule).log ↔ ∃ earlier turn later,
      schedule = earlier ++ turn :: later ∧ a ∈ (runTasks ar capacity udp earlier).attempts ar turn ∧
        a.accepted = decide ((runTasks ar capacity udp earlier).channel.length < capacity) := by
  rw [mem_runTasks_iff (fun s => s.log) rfl fun s turn => (step_log s turn).1]
  refine exists_congr fun earlier => exists_congr fun turn => exists_congr fun later => ?_
  refine and_congr_right fun _ => (and_iff_left_of_imp fun ha => ?_).symm
  rw [(step_log _ turn).2 a ha, runTasks_capacity]

/-- **Where a command is lost**: at a turn that tries to report it and finds the channel full. -/
theorem mem_lost_iff {command : RuntimeIoCommand} :
    command ∈ (runTasks ar capacity udp schedule).lost ↔ ∃ earlier turn later,
      schedule = earlier ++ turn :: later ∧
        capacity ≤ (runTasks ar capacity udp earlier).channel.length ∧
        command ∈ ((runTasks ar capacity udp earlier).attempts ar turn).map Attempt.command := by
  simp only [Books.lost, List.mem_map, List.mem_filter, mem_log_iff]
  constructor
  · rintro ⟨a, ⟨⟨earlier, turn, later, hsplit, ha, haccepted⟩, hfull⟩, rfl⟩
    rw [haccepted] at hfull
    exact ⟨earlier, turn, later, hsplit, by simpa using hfull, a, ha, rfl⟩
  · rintro ⟨earlier, turn, later, hsplit, hfull, a, ha, rfl⟩
    have haccepted := (step_log _ turn).2 a ha
    rw [runTasks_capacity] at haccepted
    exact ⟨a, ⟨⟨earlier, turn, later, hsplit, ha, haccepted⟩, by simp [haccepted, hfull]⟩, rfl⟩

/-- **Where requests are dropped**: at a turn at which a writer fails with requests in its queue. -/
theorem dropped_eq_nil_iff :
    (runTasks ar capacity udp schedule).dropped = [] ↔ ∀ earlier turn later,
      schedule = earlier ++ turn :: later → (runTasks ar capacity udp earlier).drops turn = [] := by
  simp only [List.eq_nil_iff_forall_not_mem]
  constructor
  · intro hnone earlier turn later hsplit transmit hdrops
    exact hnone transmit ((mem_runTasks_iff (fun s => s.dropped) rfl
      (fun s turn => (step_move ar s turn).kept_dropped.2) schedule transmit).mpr
        ⟨earlier, turn, later, hsplit, hdrops⟩)
  · intro hnone transmit hdropped
    obtain ⟨earlier, turn, later, hsplit, hdrops⟩ := (mem_runTasks_iff (fun s => s.dropped) rfl
      (fun s turn => (step_move ar s turn).kept_dropped.2) schedule transmit).mp hdropped
    exact hnone earlier turn later hsplit transmit hdrops

end

/-- The transmit queue and the channels of the writers are empty, and nothing is being sent. -/
def Tasks.Drained (s : Tasks) : Prop := s.transmits = [] ∧ s.outstanding = []

/-- What was reported was put into the channel or lost. -/
theorem countP_log (b : Books) (p : RuntimeIoCommand → Bool) :
    b.log.countP (fun a => p a.command) = b.put.countP p + b.lost.countP p := by
  rw [Books.put, Books.lost, List.countP_map, List.countP_map]
  exact List.countP_eq_countP_filter_add b.log _ Attempt.accepted

/-- Every message that was taken has been completed in the channel exactly if no completion was lost
and no message dropped. -/
theorem Accounted.completed_iff (h : Accounted b) (hdrained : b.outstanding = []) :
    (∀ sendId, b.put.countP (RuntimeIoCommand.completes sendId) =
        b.taken.countP (SipTransmit.sends sendId)) ↔
      (∀ command ∈ b.lost, ∀ sendId, command.completes sendId = false) ∧ b.dropped = [] := by
  have hcount : ∀ sendId, b.taken.countP (SipTransmit.sends sendId) =
      b.put.countP (RuntimeIoCommand.completes sendId) +
        b.lost.countP (RuntimeIoCommand.completes sendId) +
        b.dropped.countP (SipTransmit.sends sendId) := by
    intro sendId
    have hb := h sendId
    rw [hdrained, countP_log b (RuntimeIoCommand.completes sendId)] at hb
    simpa using hb
  constructor
  · intro hput
    have hzero : ∀ sendId, b.lost.countP (RuntimeIoCommand.completes sendId) = 0 ∧
        b.dropped.countP (SipTransmit.sends sendId) = 0 := by
      intro sendId
      have hput := hput sendId
      have hcount := hcount sendId
      omega
    refine ⟨fun command hlost sendId => ?_, List.eq_nil_iff_forall_not_mem.mpr ?_⟩
    · simpa using List.countP_eq_zero.mp (hzero sendId).1 command hlost
    · intro transmit hdropped
      exact List.countP_eq_zero.mp (hzero transmit.sendId).2 transmit hdropped (decide_eq_true rfl)
  · rintro ⟨hlost, hdropped⟩ sendId
    have hnone : b.lost.countP (RuntimeIoCommand.completes sendId) = 0 :=
      List.countP_eq_zero.mpr fun command hcommand => by simp [hlost command hcommand sendId]
    rw [hcount, hnone, hdropped]
    rfl

section
variable {b : Books} (h : Spoken b) (hfew : b.connections.length < 2 ^ 64)
include h hfew

/-- A command is about a connection exactly if its reader reported it. -/
theorem Spoken.association_iff (hc : b.connections[k]? = some c) {a : Attempt} (ha : a ∈ b.log) :
    a.command.association = some c.associationId ↔ a.source = .reader k := by
  have hid : ∀ {i c'}, b.connections[i]? = some c' → c'.associationId = i + 1 ∧ i < 2 ^ 64 := by
    intro i c' hc'
    obtain ⟨hi, -⟩ := List.getElem?_eq_some_iff.mp hc'
    exact ⟨(h.numbered i c' hc').trans (u64_of_lt (by omega)), by omega⟩
  have hown : ∀ {i}, a.source = .reader i → ∃ c', b.connections[i]? = some c' ∧
      a.command.association = some c'.associationId := by
    intro i hi
    have hmem : a.command ∈ b.reported i :=
      List.mem_map_of_mem (List.mem_filter.mpr ⟨ha, decide_eq_true hi⟩)
    obtain ⟨messages, hmessages⟩ := h.reported i
    rw [hmessages] at hmem
    cases hc' : b.connections[i]? with
    | none =>
      rw [hc'] at hmem
      exact nomatch hmem
    | some c' =>
      rw [hc'] at hmem
      exact ⟨c', rfl, Connection.association_of_mem hmem⟩
  constructor
  · intro hassociation
    rcases h.others a ha with ⟨i, hi⟩ | hzero
    · obtain ⟨c', hc', hassociation'⟩ := hown hi
      rw [hassociation] at hassociation'
      have := Option.some.inj hassociation'
      have := hid hc
      have := hid hc'
      obtain rfl : i = k := by omega
      exact hi
    · rw [hassociation] at hzero
      have := (hid hc).1
      simp only [Option.getD_some] at hzero
      omega
  · intro hsource
    obtain ⟨c', hc', hassociation⟩ := hown hsource
    rw [hc] at hc'
    rw [hassociation, Option.some.inj hc']

/-- What the channel got about a connection is what its reader reported and was not lost. -/
theorem Spoken.put_eq (hc : b.connections[k]? = some c) :
    (b.put.filter fun command => command.association = some c.associationId) =
      ((b.log.filter fun a => a.source = .reader k).filter Attempt.accepted).map
        Attempt.command := by
  rw [Books.put, List.filter_map, List.filter_filter, List.filter_filter]
  refine congrArg (List.map Attempt.command) (List.filter_congr fun a ha => ?_)
  rw [Function.comp_apply, Bool.and_comm]
  exact congrArg (a.accepted && ·) (decide_eq_decide.mpr (h.association_iff hfew hc ha))

/-- The channel got the close of a connection, behind its messages, exactly if the close was not
lost. -/
theorem Spoken.closed_iff (hc : b.connections[k]? = some c) {localAddr : SocketAddr}
    {writer : Writer}
    (hended : c.stream = .running localAddr .ended writer) :
    (∃ messages : List Bytes, (b.put.filter fun command => command.association = some c.associationId) =
          messages.map (.receive c.associationId .tcp localAddr c.remoteAddr) ++
            [.transportClosed c.associationId .tcp localAddr c.remoteAddr 1]) ↔
      .transportClosed c.associationId .tcp localAddr c.remoteAddr 1 ∉ b.lost := by
  -- The attempts of the reader are its messages and then the close.
  obtain ⟨messages, hmessages⟩ := h.reported k
  rw [hc] at hmessages
  simp only [Option.elim_some, Connection.reports, hended, if_true] at hmessages
  obtain ⟨sent, last, hsplit, hsent, hlast⟩ := List.map_eq_append_iff.mp hmessages
  obtain ⟨a, rfl, hclose⟩ := List.map_eq_singleton_iff.mp hlast
  have hmem : ∀ a', a' ∈ sent ++ [a] ↔ a' ∈ b.log ∧ a'.source = .reader k := by
    intro a'
    rw [← hsplit, List.mem_filter, decide_eq_true_iff]
  have hmessage : ∀ a' ∈ sent,
      a'.command ≠ .transportClosed c.associationId .tcp localAddr c.remoteAddr 1 := by
    intro a' ha' heq
    have hcommand := List.mem_map_of_mem (f := Attempt.command) ha'
    rw [hsent, heq] at hcommand
    obtain ⟨message, -, hreceive⟩ := List.mem_map.mp hcommand
    exact nomatch hreceive
  obtain ⟨kept, -, hkept⟩ := List.sublist_map_iff.mp
    (hsent ▸ (List.filter_sublist (p := Attempt.accepted) (l := sent)).map Attempt.command)
  rw [h.put_eq hfew hc, hsplit, List.filter_append, List.map_append, hkept]
  by_cases haccepted : a.accepted = true
  · refine iff_of_true ⟨kept, ?_⟩ ?_
    · rw [List.filter_cons_of_pos haccepted]
      exact congrArg (_ ++ [·]) hclose
    · intro hlost
      obtain ⟨a', ha', hcommand⟩ := List.mem_map.mp hlost
      obtain ⟨hlog, hfull⟩ := List.mem_filter.mp ha'
      have hsource := (h.association_iff hfew hc hlog).mp (by rw [hcommand]; rfl)
      rcases List.mem_append.mp ((hmem a').mpr ⟨hlog, hsource⟩) with hin | hin
      · exact hmessage a' hin hcommand
      · rw [List.mem_singleton.mp hin, haccepted] at hfull
        exact nomatch hfull
  · refine iff_of_false ?_ (not_not.mpr ?_)
    · rintro ⟨messages', heq⟩
      rw [List.filter_cons_of_neg haccepted, List.filter_nil, List.map_nil, List.append_nil] at heq
      have hin := heq ▸ List.mem_append_right _ List.mem_cons_self
      obtain ⟨message, -, hreceive⟩ := List.mem_map.mp hin
      exact nomatch hreceive
    · have ha := ((hmem a).mp (by simp)).1
      exact List.mem_map.mpr ⟨a, List.mem_filter.mpr ⟨ha, by simpa using haccepted⟩, hclose⟩

end

/-- **What reaches the command channel.** Over any schedule of the tasks, any failures of the sockets
and any capacity of the channel: once everything is drained, every message that was taken is
completed in the channel as often as it was taken, if and only if no completion met a full channel
and no writer dropped requests. Of a connection whose reader ended, the channel got some messages and
then one close, if and only if the close did not meet a full channel. A command is lost exactly if a turn
of the schedule tries to report it when the channel is full, and requests are dropped exactly if a
`write_all` fails at a turn at which there are further requests in the queue of its writer. -/
theorem reports_complete_iff (ar : Arith) (capacity : ℕ) (udp : Bool) (schedule : List Turn)
    (s : Tasks) (hrun : runTasks ar capacity udp schedule = s)
    (hfew : s.connections.length < 2 ^ 64) :
    (s.Drained → ((∀ sendId, s.put.countP (RuntimeIoCommand.completes sendId) =
          s.taken.countP (SipTransmit.sends sendId)) ↔
        (∀ command ∈ s.lost, ∀ sendId, command.completes sendId = false) ∧ s.dropped = [])) ∧
    (∀ (k : ℕ) (c : Connection) (localAddr : SocketAddr) (writer : Writer),
      s.connections[k]? = some c → c.stream = .running localAddr .ended writer →
      ((∃ messages : List Bytes,
          (s.put.filter fun command => command.association = some c.associationId) =
            messages.map (.receive c.associationId .tcp localAddr c.remoteAddr) ++
              [.transportClosed c.associationId .tcp localAddr c.remoteAddr 1]) ↔
        .transportClosed c.associationId .tcp localAddr c.remoteAddr 1 ∉ s.lost)) ∧
    (∀ command, command ∈ s.lost ↔ ∃ earlier turn later, schedule = earlier ++ turn :: later ∧
      capacity ≤ (runTasks ar capacity udp earlier).channel.length ∧
      command ∈ ((runTasks ar capacity udp earlier).attempts ar turn).map Attempt.command) ∧
    (s.dropped = [] ↔ ∀ earlier turn later, schedule = earlier ++ turn :: later →
      (runTasks ar capacity udp earlier).drops turn = []) := by
  subst hrun
  have haccounted := runTasks_invariant Accounted.move ar capacity udp
    (accounted_init capacity udp) schedule
  have hspoken := runTasks_invariant Spoken.move ar capacity udp (spoken_init capacity udp) schedule
  refine ⟨fun hdrained => haccounted.completed_iff hdrained.2, ?_, fun _ => mem_lost_iff,
    dropped_eq_nil_iff⟩
  intro k c localAddr writer hc hended
  exact hspoken.closed_iff hfew hc hended

/-- An address of this host. -/
def sampleHost (port : ℕ) : SocketAddr where
  isIpv4 := true
  ip := [49]
  port := port

/-- A message of two bytes. -/
def sampleTransmit (sendId : ℕ) (protocol : SipTransportProtocol) : SipTransmit where
  sendId := sendId
  associationId := 1
  protocol := protocol
  data := [65, 66]

/-- A connection is accepted, and two messages are handed to its writer. -/
def sampleTurns : List Turn :=
  [.accept (sampleHost 1), .start 0 (some (sampleHost 2)), .transmit (sampleTransmit 1 .tcp),
    .transmit (sampleTransmit 2 .tcp), .dispatch, .dispatch, .receiveRequest 0]

/-- The writer writes both messages, and the peer closes the connection. -/
def sampleTasks : Tasks :=
  runTasks .wrapping 8 true
    (sampleTurns ++ [.written 0 true, .receiveRequest 0, .written 0 true, .read 0 []])

/-- A run to its end: connection `1` and its send. -/
theorem reports_complete_sample :
    sampleTasks.Drained ∧ sampleTasks.connections.length < 2 ^ 64 ∧ sampleTasks.lost = [] ∧
      (∀ sendId, sampleTasks.put.countP (RuntimeIoCommand.completes sendId) =
        sampleTasks.taken.countP (SipTransmit.sends sendId)) ∧
      ∃ messages : List Bytes, (sampleTasks.put.filter fun command => command.association = some 1) =
          messages.map (.receive 1 .tcp (sampleHost 2) (sampleHost 1)) ++
            [.transportClosed 1 .tcp (sampleHost 2) (sampleHost 1) 1] := by
  have hdrained : sampleTasks.Drained := ⟨rfl, rfl⟩
  have hfew : sampleTasks.connections.length < 2 ^ 64 := by decide
  have hlost : sampleTasks.lost = [] := rfl
  have hreports := reports_complete_iff .wrapping 8 true _ sampleTasks rfl hfew
  refine ⟨hdrained, hfew, hlost, (hreports.1 hdrained).mpr ⟨?_, rfl⟩, ?_⟩
  · rw [hlost]
    exact fun _ hcommand => nomatch hcommand
  · refine (hreports.2.1 0 _ (sampleHost 2) (.idle []) rfl rfl).mpr ?_
    rw [hlost]
    exact nofun

/-- **Reports are lost.** A completion meets a full channel; a writer fails with a message in its
queue, and the channel never gets a completion for it; a close meets a full channel. -/
theorem reports_lost : (∃ s, runTasks .wrapping 1 false [.transmit (sampleTransmit 1 .udp),
        .transmit (sampleTransmit 2 .udp), .dispatch, .dispatch] = s ∧ s.Drained ∧
      s.taken.map SipTransmit.sendId = [1, 2] ∧ s.put = [.completeSend 1 (.error 1)]) ∧
    (∃ s, runTasks .wrapping 8 false (sampleTurns ++ [.written 0 false, .readFailed 0]) = s ∧
      s.Drained ∧ s.taken.map SipTransmit.sendId = [1, 2] ∧
      s.put = [.completeSend 1 (.error 1),
        .transportClosed 1 .tcp (sampleHost 2) (sampleHost 1) 1] ∧ s.lost = []) ∧
    (∃ s, runTasks .wrapping 1 false [.accept (sampleHost 1), .start 0 (some (sampleHost 2)),
        .transmit (sampleTransmit 1 .udp), .dispatch, .readFailed 0, .receiveRequest 0] = s ∧
      s.Drained ∧ s.connections.map Connection.stream = [.running (sampleHost 2) .ended .ended] ∧
      s.put = [.completeSend 1 (.error 1)]) := by
  refine ⟨⟨_, rfl, ⟨rfl, rfl⟩, rfl, rfl⟩, ⟨_, rfl, ⟨rfl, rfl⟩, rfl, rfl, rfl⟩,
    ⟨_, rfl, ⟨rfl, rfl⟩, rfl, rfl⟩⟩

end GmvPjsip.Io
