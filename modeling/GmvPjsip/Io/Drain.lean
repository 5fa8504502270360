import GmvPjsip.Auth.Server
import GmvPjsip.Commands.Queues
import GmvPjsip.Io.Command

/-!
# Draining the socket commands

A poll of `SipRuntime` first drains the command channel of the socket layer and then polls the shim.
Draining submits packets and closes to the shim's queues; the event that tells the application of a
close is sent from the draining loop itself, before any of the packets is handled.

* `SipRuntime` has the channel of socket commands, the shim with its queues, and the event channel
  of the application. What the handlers of the shim emit is a parameter.
* `Handlers` says of every event which packet caused it. A packet may wait, as a REGISTER waits for its
  lookup, and cause more events in a later poll; a packet that does not wait causes none.
* `close_event_order`: of a packet and a later close, no event of the packet comes after the close
  event if a poll lies between the two commands and the packet does not wait any more, and none comes
  before it if no poll lies between them.
-/

namespace GmvPjsip.Io

open GmvPjsip.Auth
open GmvPjsip.Commands

/-! ## The code -/

/-- What a `SipRuntimeEvent` of kind `TransportClosed` says. -/
structure ClosedEvent where
  associationId : ℕ
  protocol : SipTransportProtocol
  localAddr : SocketAddr
  remoteAddr : SocketAddr
  status : Int
  deriving DecidableEq, Repr

section
variable (τ ε : Type)

/-- An event on the channel of the application, with the number of the call it comes from. The
number is written and never read. -/
inductive AppEvent
  /-- Sent when a `TransportClosed` command is drained. -/
  | closed (call : ℕ) (event : ClosedEvent)
  /-- Emitted because of the command of this call, when it is handled or later. -/
  | caused (call : ℕ) (event : ε)
  /-- Emitted for a reason of its own, such as a stop. -/
  | other (event : ε)
  deriving DecidableEq, Repr

/-- The rest of the shim and PJSIP: some state, and what is emitted when a command is handled, in the
rest of a poll and when the runtime is released. An event comes with the call that caused it, if any.
`waiting` are the calls that may still cause events once they were handled: a call can wait only from
the time it is handled, and an event is caused by the command being handled or by a call that waits. -/
structure Handlers where
  init : τ
  handle : τ → Tagged Command → τ × List (Option ℕ × ε)
  rest : τ → τ × List (Option ℕ × ε)
  release : τ → List (Tagged Command) → τ × List ε
  waiting : τ → List ℕ
  init_waiting : waiting init = []
  handle_waiting : ∀ inner t, waiting (handle inner t).1 ⊆ t.call :: waiting inner
  handle_causes : ∀ inner t, ∀ e ∈ (handle inner t).2, ∀ call, e.1 = some call →
    call ∈ t.call :: waiting inner
  rest_waiting : ∀ inner, waiting (rest inner).1 ⊆ waiting inner
  rest_causes : ∀ inner, ∀ e ∈ (rest inner).2, ∀ call, e.1 = some call → call ∈ waiting inner

/-- That state, and the event channel. -/
structure World where
  inner : τ
  events : List (AppEvent ε)

/-- A `SipRuntime`: whether it was stopped, the socket commands in the channel, the shim, and the
number of calls so far. -/
structure SipRuntime where
  stopped : Bool
  ioCommands : List (Tagged RuntimeIoCommand)
  shim : Sys (World τ ε)
  calls : ℕ

end

/-- What can happen: a socket command is put into the channel, the runtime is polled or stopped, or
the application submits something itself. -/
inductive IoOp
  | enqueue (command : RuntimeIoCommand)
  | poll
  | submit (alloc : Alloc) (call : Submission)
  | stop

section
variable {τ ε : Type} (pj : Pjsip) (alloc : ℕ → Alloc) (handlers : Handlers τ ε)

/-- An event of the handlers, on the channel of the application. -/
def AppEvent.ofCause : Option ℕ × ε → AppEvent ε
  | (some call, event) => .caused call event
  | (none, event) => .other event

/-- The owner thread: the events of a handler go to the channel. -/
def eventOwner : Owner (World τ ε) where
  start w := w
  handle w t :=
    let (inner, emitted) := handlers.handle w.inner t
    ⟨inner, w.events ++ emitted.map .ofCause⟩
  release w commands :=
    let (inner, emitted) := handlers.release w.inner commands
    ⟨inner, w.events ++ emitted.map .other⟩

/-- Submit on behalf of a call, if there is anything to submit. -/
def submitAs (call : ℕ) (shim : Sys (World τ ε)) : Option Submission → Sys (World τ ε)
  | none => shim
  | some submission => (Sys.submit pj (alloc call) submission { shim with calls := call }).2

/-- Send an event to the application. -/
def sendEvent (event : AppEvent ε) (shim : Sys (World τ ε)) : Sys (World τ ε) :=
  { shim with world := { shim.world with events := shim.world.events ++ [event] } }

/-- The event for a drained command. -/
def RuntimeIoCommand.closedEvent : RuntimeIoCommand → Option ClosedEvent
  | .receive .. => none
  | .completeSend .. => none
  | .transportClosed associationId protocol localAddr remoteAddr status =>
    some ⟨associationId, protocol, localAddr, remoteAddr, status⟩

/-- One pass of the draining loop.
Source: `runtime.rs`, `SipRuntime::drain_io_commands` -/
def drainCommand (shim : Sys (World τ ε)) (t : Tagged RuntimeIoCommand) : Sys (World τ ε) :=
  let shim' := submitAs pj alloc t.call shim (t.item.submission false)
  match t.item.closedEvent with
  | none => shim'
  | some event => sendEvent (.closed t.call event) shim'

/-- The rest of a shim poll: timeouts, cleanup and `pjsip_endpt_handle_events`. A REGISTER whose lookup
times out is reported here, and its event is one of its packet. -/
def restOfPoll (shim : Sys (World τ ε)) : Sys (World τ ε) :=
  let (inner, emitted) := handlers.rest shim.world.inner
  { shim with world := ⟨inner, shim.world.events ++ emitted.map .ofCause⟩ }

/-- Source: `runtime.rs`, `SipRuntime::poll` -/
def SipRuntime.poll (r : SipRuntime τ ε) : SipRuntime τ ε :=
  if r.stopped then r
  else
    let drained := r.ioCommands.foldl (drainCommand pj alloc) r.shim
    { r with ioCommands := [], shim := restOfPoll handlers (drained.poll (eventOwner handlers)) }

/-- Source: `runtime.rs`, `SipRuntime::stop` -/
def SipRuntime.stop (r : SipRuntime τ ε) : SipRuntime τ ε :=
  if r.stopped then r
  else { r with stopped := true, shim := r.shim.stop (eventOwner handlers) }

/-- One call. -/
def SipRuntime.step (r : SipRuntime τ ε) (op : IoOp) : SipRuntime τ ε :=
  let r' : SipRuntime τ ε := match op with
    | .enqueue command => { r with ioCommands := r.ioCommands ++ [⟨r.calls, command⟩] }
    | .poll => r.poll pj alloc handlers
    | .submit callAlloc call =>
      { r with shim := (Sys.submit pj callAlloc call { r.shim with calls := r.calls }).2 }
    | .stop => r.stop handlers
  { r' with calls := r.calls + 1 }

/-- A runtime that was just started. -/
def SipRuntime.init : SipRuntime τ ε where
  stopped := false
  ioCommands := []
  shim := ⟨true, .empty, 0, ⟨handlers.init, []⟩⟩
  calls := 0

/-- A list of calls on a new runtime. -/
def runIo (ops : List IoOp) : SipRuntime τ ε :=
  ops.foldl (SipRuntime.step pj alloc handlers) (SipRuntime.init handlers)

/-- The events the application has been sent. -/
def events (ops : List IoOp) : List (AppEvent ε) :=
  (runIo pj alloc handlers ops).shim.world.events

/-- The packet of a call waits, as a REGISTER waits for its lookup, and may cause more events. -/
def Deferred (call : ℕ) (r : SipRuntime τ ε) : Prop :=
  r.stopped = false ∧ call ∈ handlers.waiting r.shim.world.inner

instance (call : ℕ) (r : SipRuntime τ ε) : Decidable (Deferred handlers call r) :=
  inferInstanceAs (Decidable (_ ∧ _))

end

/-! ## What a call does to the events -/

/-- The call an event comes from. -/
def AppEvent.call? {ε : Type} : AppEvent ε → Option ℕ
  | .closed call _ => some call
  | .caused call _ => some call
  | .other _ => none

/-- The close event of a drained command. -/
def closedEvents (ε : Type) (t : Tagged RuntimeIoCommand) : List (AppEvent ε) :=
  (t.item.closedEvent.map (.closed t.call)).toList

variable {pending : List (Tagged Command)} {call : ℕ}

section
variable {τ ε : Type} (pj : Pjsip) (alloc : ℕ → Alloc) (handlers : Handlers τ ε)

/-- Submitting adds at most the command of the call to a queue. -/
theorem submit_spec (callAlloc : Alloc) (call : Submission) {s : Sys (World τ ε)}
    (h : s.queues.Holds pending) :
    ∃ pending', (s.submit pj callAlloc call).2.queues.Holds pending' ∧
      pending'.map Tagged.call ⊆ pending.map Tagged.call ++ [s.calls] ∧
      (s.submit pj callAlloc call).2.world = s.world ∧
      (s.submit pj callAlloc call).2.started = s.started := by
  unfold Sys.submit
  cases call.command pj callAlloc s.started with
  | error refusal => exact ⟨pending, h, List.subset_append_left _ _, rfl, rfl⟩
  | ok command => exact ⟨pending ++ [⟨s.calls, command⟩], h.push _ _, by simp, rfl, rfl⟩

/-- Draining a command adds it to its queue, and sends the event if it is a close. -/
theorem drainCommand_spec (t : Tagged RuntimeIoCommand) {s : Sys (World τ ε)}
    (h : s.queues.Holds pending) :
    ∃ pending', (drainCommand pj alloc s t).queues.Holds pending' ∧
      pending'.map Tagged.call ⊆ pending.map Tagged.call ++ [t.call] ∧
      (drainCommand pj alloc s t).world = ⟨s.world.inner, s.world.events ++ closedEvents ε t⟩ ∧
      (drainCommand pj alloc s t).started = s.started := by
  obtain ⟨pending', hqueues, hmem, hworld, hstarted⟩ :
      ∃ pending', (submitAs pj alloc t.call s (t.item.submission false)).queues.Holds pending' ∧
        pending'.map Tagged.call ⊆ pending.map Tagged.call ++ [t.call] ∧
        (submitAs pj alloc t.call s (t.item.submission false)).world = s.world ∧
        (submitAs pj alloc t.call s (t.item.submission false)).started = s.started := by
    cases t.item.submission false with
    | none => exact ⟨pending, h, List.subset_append_left _ _, rfl, rfl⟩
    | some submission =>
      exact submit_spec pj (alloc t.call) submission (s := { s with calls := t.call }) h
  cases hevent : t.item.closedEvent with
  | none =>
    simp only [drainCommand, closedEvents, hevent]
    exact ⟨pending', hqueues, hmem, by simp [hworld], hstarted⟩
  | some event =>
    simp only [drainCommand, closedEvents, hevent]
    exact ⟨pending', hqueues, hmem, by simp [sendEvent, hworld], hstarted⟩

/-- **The draining loop** sends the close events, in the order of the channel, and nothing else. -/
theorem drain_spec (ioCommands : List (Tagged RuntimeIoCommand)) {s : Sys (World τ ε)}
    (h : s.queues.Holds pending) :
    ∃ pending', (ioCommands.foldl (drainCommand pj alloc) s).queues.Holds pending' ∧
      pending'.map Tagged.call ⊆ pending.map Tagged.call ++ ioCommands.map Tagged.call ∧
      (ioCommands.foldl (drainCommand pj alloc) s).world =
        ⟨s.world.inner, s.world.events ++ ioCommands.flatMap (closedEvents ε)⟩ ∧
      (ioCommands.foldl (drainCommand pj alloc) s).started = s.started := by
  induction ioCommands generalizing s pending with
  | nil => exact ⟨pending, h, by simp, by simp, rfl⟩
  | cons first rest ih =>
    obtain ⟨middle, hmiddle, hfirst, hworld, hstarted⟩ := drainCommand_spec pj alloc first h
    obtain ⟨pending', hqueues, hrest, hworld', hstarted'⟩ := ih hmiddle
    refine ⟨pending', hqueues, ?_, ?_, hstarted'.trans hstarted⟩
    · rw [List.map_cons, List.append_cons]
      exact fun call hcall => List.mem_append.mpr
        ((List.mem_append.mp (hrest hcall)).imp_left (hfirst ·))
    · rw [List.foldl_cons, hworld', hworld, List.flatMap_cons, List.append_assoc]

/-- An event of the handlers is no close event, and of the call it came with. -/
theorem ofCause_call {emitted : List (Option ℕ × ε)} {e : AppEvent ε}
    (he : e ∈ emitted.map .ofCause) (hcall : e.call? = some call) :
    (∃ event, e = .caused call event) ∧ ∃ cause ∈ emitted, cause.1 = some call := by
  obtain ⟨⟨origin, event⟩, hmem, rfl⟩ := List.mem_map.mp he
  cases origin with
  | none => cases hcall
  | some call' =>
    obtain rfl := Option.some.inj hcall
    exact ⟨⟨event, rfl⟩, _, hmem, rfl⟩

/-- Handlers emit events of their commands and of calls that wait, and let no other call wait. -/
theorem handle_spec (commands : List (Tagged Command)) (w : World τ ε) :
    ∃ causes, (commands.foldl (eventOwner handlers).handle w).events = w.events ++ causes ∧
      (∀ e ∈ causes, ∀ call, e.call? = some call → (∃ event, e = .caused call event) ∧
        call ∈ commands.map Tagged.call ++ handlers.waiting w.inner) ∧
      handlers.waiting (commands.foldl (eventOwner handlers).handle w).inner ⊆
        commands.map Tagged.call ++ handlers.waiting w.inner := by
  induction commands generalizing w with
  | nil =>
    exact ⟨[], (List.append_nil _).symm, fun e he => absurd he List.not_mem_nil, List.Subset.refl _⟩
  | cons t rest ih =>
    obtain ⟨causes, hcauses, hmem, hwaiting⟩ := ih ((eventOwner handlers).handle w t)
    have hnow : t.call :: handlers.waiting w.inner ⊆
        (t :: rest).map Tagged.call ++ handlers.waiting w.inner :=
      List.cons_subset_cons _ (List.subset_append_right _ _)
    -- who waits after the first command was handled
    have hthen : rest.map Tagged.call ++ handlers.waiting ((eventOwner handlers).handle w t).inner ⊆
        (t :: rest).map Tagged.call ++ handlers.waiting w.inner :=
      List.append_subset.mpr ⟨List.subset_cons_of_subset _ (List.subset_append_left _ _),
        List.Subset.trans (handlers.handle_waiting w.inner t) hnow⟩
    refine ⟨(handlers.handle w.inner t).2.map .ofCause ++ causes, ?_, fun e he call hcall => ?_,
      List.Subset.trans hwaiting hthen⟩
    · rw [List.foldl_cons, hcauses]
      exact List.append_assoc ..
    · rcases List.mem_append.mp he with hfirst | hrest
      · obtain ⟨hcaused, cause, hcause, horigin⟩ := ofCause_call hfirst hcall
        exact ⟨hcaused, hnow (handlers.handle_causes w.inner t cause hcause call horigin)⟩
      · exact (hmem e hrest call hcall).imp_right (hthen ·)

/-- The calls whose commands are in the channel or in a queue. -/
def SipRuntime.queued (r : SipRuntime τ ε) (pending : List (Tagged Command)) : List ℕ :=
  pending.map Tagged.call ++ r.ioCommands.map Tagged.call

/-- What a poll of a live runtime sends: the close events of the channel, then events of what was in the
channel or in a queue and of what waits. -/
theorem poll_spec {r : SipRuntime τ ε} (h : r.shim.queues.Holds pending)
    (hstopped : r.stopped = false)
    (hstarted : r.shim.started = true) :
    ∃ rest, (r.poll pj alloc handlers).shim.world.events =
        r.shim.world.events ++ r.ioCommands.flatMap (closedEvents ε) ++ rest ∧
      (∀ e ∈ rest, ∀ call, e.call? = some call → (∃ event, e = .caused call event) ∧
        call ∈ r.queued pending ++ handlers.waiting r.shim.world.inner) ∧
      handlers.waiting (r.poll pj alloc handlers).shim.world.inner ⊆
        r.queued pending ++ handlers.waiting r.shim.world.inner ∧
      (r.poll pj alloc handlers).shim.queues.Holds [] ∧
      (r.poll pj alloc handlers).shim.started = true ∧
      (r.poll pj alloc handlers).ioCommands = [] := by
  obtain ⟨pending', hqueues, hmem, hworld, hdrained⟩ := drain_spec pj alloc r.ioCommands h
  obtain ⟨hcommands, hempty⟩ := hqueues.processCommands
  have hlive := hdrained.trans hstarted
  generalize hshim : r.ioCommands.foldl (drainCommand pj alloc) r.shim = drained at *
  obtain ⟨causes, hcauses, hcalls, hwaiting⟩ :=
    handle_spec handlers (byKind pollOrder pending') drained.world
  have hpoll : drained.poll (eventOwner handlers) = { drained with
        queues := (processCommands drained.queues).2
        world := (byKind pollOrder pending').foldl (eventOwner handlers).handle drained.world } := by
    simp [Sys.poll, hlive, hcommands]
  simp only [SipRuntime.poll, hstopped, hshim, hpoll, restOfPoll, Bool.false_eq_true, if_false]
  generalize (byKind pollOrder pending').foldl (eventOwner handlers).handle drained.world = handled at *
  rw [hworld] at hcauses hcalls hwaiting
  -- a command that was handled was in a queue before the poll, or in the channel
  have hsource : (byKind pollOrder pending').map Tagged.call ++ handlers.waiting r.shim.world.inner ⊆
      r.queued pending ++ handlers.waiting r.shim.world.inner := by
    refine fun call hcall => List.mem_append.mpr ((List.mem_append.mp hcall).imp_left fun hhandled => ?_)
    exact hmem (List.map_subset _ (fun t ht => (mem_byKind.mp ht).2) hhandled)
  refine ⟨causes ++ (handlers.rest handled.inner).2.map .ofCause, ?_, ?_, ?_, hempty, hlive, trivial⟩
  · rw [hcauses, List.append_assoc _ causes]
  · intro e he call hcall
    rcases List.mem_append.mp he with hcause | hrest
    · exact (hcalls e hcause call hcall).imp_right (hsource ·)
    · obtain ⟨hcaused, cause, hcause, horigin⟩ := ofCause_call hrest hcall
      have hwaits := handlers.rest_causes handled.inner cause hcause call horigin
      exact ⟨hcaused, hsource (hwaiting hwaits)⟩
  · exact List.Subset.trans (handlers.rest_waiting handled.inner) (List.Subset.trans hwaiting hsource)

/-! ## Runs -/

/-- The command of the call is in the channel or in a queue, and will be handled by the next poll. A
runtime that was stopped handles nothing. -/
def Queued (call : ℕ) (r : SipRuntime τ ε) (pending : List (Tagged Command)) : Prop :=
  r.stopped = false ∧ call ∈ r.queued pending

/-- The queues hold these commands, a runtime that was not stopped is started, and every number is
that of a past call. -/
structure Tracked (r : SipRuntime τ ε) (pending : List (Tagged Command)) : Prop where
  queues : r.shim.queues.Holds pending
  live : r.stopped = false → r.shim.started = true
  queuedLt : ∀ call, Queued call r pending → call < r.calls
  deferredLt : ∀ call, Deferred handlers call r → call < r.calls
  eventsLt : ∀ e ∈ r.shim.world.events, ∀ call, e.call? = some call → call < r.calls

/-- What a call does to the events, to the commands that are queued and to who waits. -/
structure Moves (r : SipRuntime τ ε) (pending : List (Tagged Command)) (r' : SipRuntime τ ε)
    (pending' : List (Tagged Command)) (later : List (AppEvent ε)) : Prop where
  queues : r'.shim.queues.Holds pending'
  live : r'.stopped = false → r'.shim.started = true
  calls : r'.calls = r.calls + 1
  events : r'.shim.world.events = r.shim.world.events ++ later
  queued : ∀ call, Queued call r' pending' → Queued call r pending ∨ call = r.calls
  deferred : ∀ call, Deferred handlers call r' → Queued call r pending ∨ Deferred handlers call r
  sent : ∀ e ∈ later, ∀ call, e.call? = some call → Queued call r pending ∨ Deferred handlers call r
  closes : ∀ call event, .closed call event ∈ later → Queued call r pending

variable {handlers} in
/-- A move of a tracked runtime leaves it tracked: who waits or is queued then was so before, or is the
call itself. -/
theorem Tracked.moves {r r' : SipRuntime τ ε} {pending' : List (Tagged Command)}
    {later : List (AppEvent ε)} (h : Tracked handlers r pending)
    (hmoves : Moves handlers r pending r' pending' later) : Tracked handlers r' pending' := by
  have hpast : ∀ call, Queued call r pending ∨ Deferred handlers call r → call < r.calls + 1 := by
    rintro call (hqueued | hdeferred)
    · exact Nat.lt_succ_of_lt (h.queuedLt call hqueued)
    · exact Nat.lt_succ_of_lt (h.deferredLt call hdeferred)
  constructor
  · exact hmoves.queues
  · exact hmoves.live
  · intro call hqueued
    rw [hmoves.calls]
    rcases hmoves.queued call hqueued with hold | rfl
    · exact hpast call (.inl hold)
    · exact Nat.lt_succ_self _
  · intro call hdeferred
    rw [hmoves.calls]
    exact hpast call (hmoves.deferred call hdeferred)
  · intro e he call hcall
    rw [hmoves.events] at he
    rw [hmoves.calls]
    rcases List.mem_append.mp he with hold | hnew
    · exact Nat.lt_succ_of_lt (h.eventsLt e hold call hcall)
    · exact hpast call (hmoves.sent e hnew call hcall)

/-- A call that leaves the shim and the channel alone. -/
theorem moves_idle {r : SipRuntime τ ε} (h : Tracked handlers r pending) :
    Moves handlers r pending { r with calls := r.calls + 1 } pending [] where
  queues := h.queues
  live := h.live
  calls := rfl
  events := (List.append_nil _).symm
  queued _ hqueued := .inl hqueued
  deferred _ hdeferred := .inr hdeferred
  sent _ he := absurd he List.not_mem_nil
  closes _ _ he := absurd he List.not_mem_nil

/-- **A poll** of a runtime that was not stopped empties the channel and the queues. Its close events
come first. -/
theorem moves_poll {r : SipRuntime τ ε} (h : Tracked handlers r pending)
    (hstopped : r.stopped = false) :
    ∃ rest, Moves handlers r pending (r.step pj alloc handlers .poll) []
        (r.ioCommands.flatMap (closedEvents ε) ++ rest) ∧
      (∀ call, ¬Queued call (r.step pj alloc handlers .poll) []) ∧
      ∀ e ∈ rest, ∀ call event, e ≠ .closed call event := by
  obtain ⟨rest, hevents, hrest, hwaiting, hqueues, hstarted, hio⟩ :=
    poll_spec pj alloc handlers h.queues hstopped (h.live hstopped)
  have hnone : ∀ call, ¬Queued call (r.step pj alloc handlers .poll) [] := by
    rintro call ⟨-, hcall⟩
    have hcall' : call ∈ (r.poll pj alloc handlers).queued [] := hcall
    rw [SipRuntime.queued, hio] at hcall'
    exact absurd hcall' List.not_mem_nil
  have hlive : ∀ call ∈ r.queued pending ++ handlers.waiting r.shim.world.inner,
      Queued call r pending ∨ Deferred handlers call r :=
    fun call hcall => (List.mem_append.mp hcall).imp (⟨hstopped, ·⟩) (⟨hstopped, ·⟩)
  have hnotClosed : ∀ e ∈ rest, ∀ call event, e ≠ .closed call event := by
    rintro e he call event rfl
    obtain ⟨⟨event', hcaused⟩, -⟩ := hrest _ he call rfl
    cases hcaused
  -- a close event is one of a command in the channel
  have hclosed : ∀ e ∈ r.ioCommands.flatMap (closedEvents ε), ∀ call, e.call? = some call →
      Queued call r pending := by
    intro e he call hcall
    obtain ⟨t, ht, hmem⟩ := List.mem_flatMap.mp he
    obtain ⟨event, -, rfl⟩ := Option.map_eq_some_iff.mp (Option.mem_toList.mp hmem)
    exact ⟨hstopped, List.mem_append_right _ (List.mem_map.mpr ⟨t, ht, Option.some.inj hcall⟩)⟩
  refine ⟨rest, ⟨hqueues, fun _ => hstarted, rfl, by rw [← List.append_assoc]; exact hevents,
    fun call hcall => absurd hcall (hnone call), fun call hcall => hlive call (hwaiting hcall.2),
    fun e he call hcall => ?_, fun call event he => ?_⟩, hnone, hnotClosed⟩
  · rcases List.mem_append.mp he with hfirst | hother
    · exact .inl (hclosed e hfirst call hcall)
    · exact hlive call (hrest e hother call hcall).2
  · rcases List.mem_append.mp he with hfirst | hother
    · exact hclosed _ hfirst call rfl
    · exact absurd rfl (hnotClosed _ hother call event)

/-- Nothing but a poll sends an event for a call or lets a call wait. -/
theorem moves_quiet {r : SipRuntime τ ε} (h : Tracked handlers r pending) (op : IoOp)
    (hop : op ≠ .poll ∨ r.stopped = true) :
    ∃ pending' later, Moves handlers r pending (r.step pj alloc handlers op) pending' later ∧
      ∀ e ∈ later, e.call? = none := by
  have hnil : ∀ e ∈ ([] : List (AppEvent ε)), e.call? = none :=
    fun e he => absurd he List.not_mem_nil
  cases op with
  | enqueue command =>
    refine ⟨pending, [], { moves_idle handlers h with queued := ?_ }, hnil⟩
    rintro call ⟨hlive, hcall⟩
    have hcall' : call ∈ pending.map Tagged.call ++
        (r.ioCommands ++ [(⟨r.calls, command⟩ : Tagged _)]).map Tagged.call := hcall
    rw [List.map_append, ← List.append_assoc, List.mem_append] at hcall'
    exact hcall'.imp (fun hold => ⟨hlive, hold⟩) List.mem_singleton.mp
  | poll =>
    have hstopped := hop.resolve_left fun hne => hne rfl
    have hidle : r.step pj alloc handlers .poll = { r with calls := r.calls + 1 } := by
      simp [SipRuntime.step, SipRuntime.poll, hstopped]
    rw [hidle]
    exact ⟨pending, [], moves_idle handlers h, hnil⟩
  | submit callAlloc call =>
    obtain ⟨pending', hqueues, hmem, hworld, hstarted⟩ :=
      submit_spec pj callAlloc call (s := { r.shim with calls := r.calls }) h.queues
    refine ⟨pending', [], ⟨hqueues, fun hlive => hstarted.trans (h.live hlive), rfl, ?_, ?_, ?_,
      fun e he => absurd he List.not_mem_nil, fun _ _ he => absurd he List.not_mem_nil⟩, hnil⟩
    · rw [List.append_nil]
      exact congrArg World.events hworld
    · rintro n ⟨hlive, hn⟩
      rcases List.mem_append.mp hn with hpending | hio
      · exact (List.mem_append.mp (hmem hpending)).imp
          (fun hold => ⟨hlive, List.mem_append_left _ hold⟩) List.mem_singleton.mp
      · exact .inl ⟨hlive, List.mem_append_right _ hio⟩
    · rintro n ⟨hlive, hwaits⟩
      refine .inr ⟨hlive, ?_⟩
      have hinner : (r.step pj alloc handlers (.submit callAlloc call)).shim.world.inner =
          r.shim.world.inner := congrArg World.inner hworld
      rwa [hinner] at hwaits
  | stop =>
    by_cases hstopped : r.stopped = true
    · have hidle : r.step pj alloc handlers .stop = { r with calls := r.calls + 1 } := by
        simp [SipRuntime.step, SipRuntime.stop, hstopped]
      rw [hidle]
      exact ⟨pending, [], moves_idle handlers h, hnil⟩
    · have hstarted := h.live (Bool.eq_false_iff.mpr hstopped)
      obtain ⟨-, hempty⟩ := h.queues.releaseQueues
      have hstop : r.step pj alloc handlers .stop = { r with
            stopped := true
            shim := r.shim.release (eventOwner handlers)
            calls := r.calls + 1 } := by
        simp [SipRuntime.step, SipRuntime.stop, Sys.stop, hstopped, hstarted]
      have hother : ∀ e ∈ (handlers.release r.shim.world.inner
          (releaseQueues r.shim.queues).1).2.map AppEvent.other, e.call? = none := by
        intro e he
        obtain ⟨event, -, rfl⟩ := List.mem_map.mp he
        rfl
      rw [hstop]
      refine ⟨[], _, ⟨hempty, fun hlive => absurd hlive (by simp), rfl, rfl,
        fun _ hqueued => absurd hqueued.1 (by simp), fun _ hwaits => absurd hwaits.1 (by simp),
        fun e he call hcall => ?_, fun call event he => ?_⟩, hother⟩
      · rw [hother e he] at hcall
        cases hcall
      · have hnone := hother _ he
        cases hnone

/-- Every call is a move. -/
theorem exists_moves {r : SipRuntime τ ε} (h : Tracked handlers r pending) (op : IoOp) :
    ∃ pending' later, Moves handlers r pending (r.step pj alloc handlers op) pending' later := by
  by_cases hop : op ≠ .poll ∨ r.stopped = true
  · obtain ⟨pending', later, hmoves, -⟩ := moves_quiet pj alloc handlers h op hop
    exact ⟨pending', later, hmoves⟩
  · obtain ⟨rfl, hstopped⟩ : op = .poll ∧ r.stopped = false := by simpa using hop
    obtain ⟨rest, hmoves, -⟩ := moves_poll pj alloc handlers h hstopped
    exact ⟨[], _, hmoves⟩

theorem runIo_append (before after : List IoOp) : runIo pj alloc handlers (before ++ after) =
      after.foldl (SipRuntime.step pj alloc handlers) (runIo pj alloc handlers before) :=
  List.foldl_append ..

/-- The calls are numbered from zero. -/
theorem runIo_calls (ops : List IoOp) : (runIo pj alloc handlers ops).calls = ops.length := by
  induction ops using List.reverseRecOn with
  | nil => rfl
  | append_singleton ops op ih =>
    rw [runIo_append, List.length_append, ← ih]
    rfl

/-- **Every run is tracked.** -/
theorem exists_tracked (ops : List IoOp) :
    ∃ pending, Tracked handlers (runIo pj alloc handlers ops) pending := by
  induction ops using List.reverseRecOn with
  | nil =>
    refine ⟨[], holds_empty, fun _ => rfl, fun call hcall => absurd hcall.2 List.not_mem_nil, ?_,
      fun _ h => absurd h List.not_mem_nil⟩
    · rintro call ⟨-, hwaits⟩
      have hnone : call ∈ handlers.waiting handlers.init := hwaits
      rw [handlers.init_waiting] at hnone
      exact absurd hnone List.not_mem_nil
  | append_singleton ops op ih =>
    obtain ⟨pending, htracked⟩ := ih
    obtain ⟨pending', later, hmoves⟩ := exists_moves pj alloc handlers htracked op
    rw [runIo_append]
    exact ⟨pending', htracked.moves hmoves⟩

/-- Events are of past calls. -/
theorem lt_of_mem_events (ops : List IoOp) {e : AppEvent ε} (he : e ∈ events pj alloc handlers ops)
    (hcall : e.call? = some call) : call < ops.length := by
  obtain ⟨pending, htracked⟩ := exists_tracked pj alloc handlers ops
  rw [← runIo_calls pj alloc handlers ops]
  exact htracked.eventsLt e he call hcall

/-- The command of a past call was handled and is in no queue any more. -/
def Handled (call : ℕ) (r : SipRuntime τ ε) : Prop :=
  call < r.calls ∧ ∃ pending, Tracked handlers r pending ∧ ¬Queued call r pending

variable {handlers} in
/-- **What was handled stays handled.** It sends no close event any more, and if it does not wait, no
event at all. -/
theorem Handled.steps {r : SipRuntime τ ε} (h : Handled handlers call r) (ops : List IoOp) :
    Handled handlers call (ops.foldl (SipRuntime.step pj alloc handlers) r) ∧
      ∃ later, (ops.foldl (SipRuntime.step pj alloc handlers) r).shim.world.events =
          r.shim.world.events ++ later ∧
        (∀ event, .closed call event ∉ later) ∧
        (¬Deferred handlers call r → ∀ e ∈ later, e.call? ≠ some call) := by
  induction ops generalizing r with
  | nil =>
    exact ⟨h, [], (List.append_nil _).symm, fun _ => List.not_mem_nil,
      fun _ e he => absurd he List.not_mem_nil⟩
  | cons op rest ih =>
    obtain ⟨hpast, pending, htracked, hnot⟩ := h
    obtain ⟨pending', now, hmoves⟩ := exists_moves pj alloc handlers htracked op
    have hnext : Handled handlers call (r.step pj alloc handlers op) := by
      refine ⟨Nat.lt_succ_of_lt hpast, pending', htracked.moves hmoves, fun hqueued => ?_⟩
      rcases hmoves.queued call hqueued with hold | rfl
      · exact hnot hold
      · exact Nat.lt_irrefl _ hpast
    obtain ⟨hlast, later, hlater, hopen, hquiet⟩ := ih hnext
    refine ⟨hlast, now ++ later, ?_, fun event he => ?_, fun hwaits e he hcall => ?_⟩
    · rw [List.foldl_cons, hlater, hmoves.events, List.append_assoc]
    · exact (List.mem_append.mp he).elim (fun hnow => hnot (hmoves.closes call event hnow))
        (hopen event)
    · have hstill : ¬Deferred handlers call (r.step pj alloc handlers op) :=
        fun hdeferred => (hmoves.deferred call hdeferred).elim hnot hwaits
      rcases List.mem_append.mp he with hnow | hthen
      · exact (hmoves.sent e hnow call hcall).elim hnot hwaits
      · exact hquiet hstill e hthen hcall

/-- A poll handles the command of every call made before it. -/
theorem handled_poll (call : ℕ) {r : SipRuntime τ ε} (h : Tracked handlers r pending)
    (hpast : call < r.calls) :
    Handled handlers call (r.step pj alloc handlers .poll) := by
  refine ⟨Nat.lt_succ_of_lt hpast, ?_⟩
  cases hstopped : r.stopped with
  | true =>
    obtain ⟨pending', later, hmoves, -⟩ := moves_quiet pj alloc handlers h .poll (.inr hstopped)
    refine ⟨pending', h.moves hmoves, fun hqueued => ?_⟩
    have hlive : (r.step pj alloc handlers .poll).stopped = true := by
      simp [SipRuntime.step, SipRuntime.poll, hstopped]
    exact Bool.false_ne_true (hqueued.1.symm.trans hlive)
  | false =>
    obtain ⟨rest, hmoves, hnone, -⟩ := moves_poll pj alloc handlers h hstopped
    exact ⟨[], h.moves hmoves, hnone call⟩

/-- Without a poll no event of a call is sent. -/
theorem events_of_no_poll {r : SipRuntime τ ε} (h : Tracked handlers r pending) {ops : List IoOp}
    (hops : .poll ∉ ops) :
    ∃ later, (ops.foldl (SipRuntime.step pj alloc handlers) r).shim.world.events =
        r.shim.world.events ++ later ∧ ∀ e ∈ later, e.call? = none := by
  induction ops generalizing r pending with
  | nil => exact ⟨[], (List.append_nil _).symm, fun e he => absurd he List.not_mem_nil⟩
  | cons op rest ih =>
    have hop : op ≠ .poll := fun heq => hops (heq ▸ List.mem_cons_self)
    obtain ⟨pending', now, hmoves, hquiet⟩ := moves_quiet pj alloc handlers h op (.inl hop)
    obtain ⟨later, hlater, hquiet'⟩ := ih (h.moves hmoves)
      fun hmem => hops (List.mem_cons_of_mem _ hmem)
    refine ⟨now ++ later, ?_, fun e he => ?_⟩
    · rw [List.foldl_cons, hlater, hmoves.events, List.append_assoc]
    · exact (List.mem_append.mp he).elim (hquiet e) (hquiet' e)

/-! ## The order of a packet's events and a close event -/

/-- An element that is not in the first part is in the second. -/
theorem split_right {α : Type} {front back pre post : List α} {x : α}
    (h : front ++ back = pre ++ x :: post) (hx : x ∉ front) :
    ∃ middle, back = middle ++ x :: post := by
  rcases List.append_eq_append_iff.mp h with ⟨middle, -, hback⟩ | ⟨middle, hfront, hback⟩
  · exact ⟨middle, hback⟩
  · cases middle with
    | nil => exact ⟨[], hback.symm⟩
    | cons y middle =>
      obtain ⟨rfl, -⟩ := List.cons.inj hback
      exact absurd (hfront ▸ List.mem_append_right _ List.mem_cons_self) hx

/-- An element that is not in the second part is in the first. -/
theorem split_left {α : Type} {front back pre post : List α} {x : α}
    (h : front ++ back = pre ++ x :: post) (hx : x ∉ back) :
    ∃ middle, front = pre ++ x :: middle := by
  rcases List.append_eq_append_iff.mp h with ⟨middle, -, hback⟩ | ⟨middle, hfront, hback⟩
  · exact absurd (hback ▸ List.mem_append_right _ List.mem_cons_self) hx
  · cases middle with
    | nil =>
      rw [List.nil_append] at hback
      exact absurd (hback ▸ List.mem_cons_self) hx
    | cons y middle =>
      obtain ⟨rfl, -⟩ := List.cons.inj hback
      exact ⟨middle, hfront⟩

/-- Without a poll the calls made meanwhile have no events. -/
theorem fresh_of_no_poll (before : List IoOp) {quiet : List IoOp} (hquiet : .poll ∉ quiet) :
    ∀ e ∈ events pj alloc handlers (before ++ quiet), ∀ call, e.call? = some call →
      call < before.length := by
  obtain ⟨pending, htracked⟩ := exists_tracked pj alloc handlers before
  obtain ⟨later, hlater, hnone⟩ := events_of_no_poll pj alloc handlers htracked hquiet
  intro e he call hcall
  rw [events, runIo_append, hlater] at he
  rcases List.mem_append.mp he with hold | hnew
  · exact lt_of_mem_events pj alloc handlers before hold hcall
  · rw [hnone e hnew] at hcall
    cases hcall

/-- A poll after the first call and before the second handles the first. If the first does not wait when
the second is made, it has no event after one of the second. -/
theorem caused_not_after {done mid rest : List IoOp} {event : ClosedEvent}
    {pre post : List (AppEvent ε)} (hcall : call < done.length)
    (hwaits : ¬Deferred handlers call (runIo pj alloc handlers (done ++ .poll :: mid)))
    (h : events pj alloc handlers (done ++ .poll :: mid ++ rest) =
      pre ++ .closed (done ++ .poll :: mid).length event :: post) (e : ε) :
    .caused call e ∉ post := by
  obtain ⟨pending, htracked⟩ := exists_tracked pj alloc handlers done
  have hpolled := handled_poll pj alloc handlers call htracked (by rwa [runIo_calls])
  have hhandled : Handled handlers call (runIo pj alloc handlers (done ++ .poll :: mid)) := by
    rw [runIo_append]
    exact (hpolled.steps pj alloc mid).1
  obtain ⟨-, later, hlater, -, hquiet⟩ := hhandled.steps pj alloc rest
  have hnew : .closed (done ++ .poll :: mid).length event ∉
      events pj alloc handlers (done ++ .poll :: mid) :=
    fun hmem => Nat.lt_irrefl _ (lt_of_mem_events pj alloc handlers _ hmem rfl)
  unfold events at h
  rw [runIo_append, hlater] at h
  obtain ⟨middle, rfl⟩ := split_right h hnew
  intro hmem
  exact hquiet hwaits _ (List.mem_append_right _ (List.mem_cons_of_mem _ hmem)) rfl

/-- No poll between the two: both wait in the channel until the same poll, which sends the close
event first. -/
theorem caused_not_before {before quiet rest : List IoOp} {call' : ℕ} {event : ClosedEvent}
    {pre post : List (AppEvent ε)} (hquiet : .poll ∉ quiet)
    (hcall : before.length ≤ call) (hcall' : before.length ≤ call')
    (hpast : call' < (before ++ quiet).length)
    (h : events pj alloc handlers (before ++ quiet ++ .poll :: rest) =
      pre ++ .closed call' event :: post) (e : ε) : .caused call e ∉ pre := by
  have hfresh := fresh_of_no_poll pj alloc handlers before hquiet
  obtain ⟨pending, htracked⟩ := exists_tracked pj alloc handlers (before ++ quiet)
  have hhandled := handled_poll pj alloc handlers call' htracked (by rwa [runIo_calls])
  obtain ⟨-, later, hlater, hopen, -⟩ := hhandled.steps pj alloc rest
  unfold events at h hfresh
  rw [runIo_append, List.foldl_cons, hlater] at h
  generalize runIo pj alloc handlers (before ++ quiet) = r at *
  have hnotOld : .closed call' event ∉ r.shim.world.events :=
    fun hmem => Nat.not_lt_of_le hcall' (hfresh _ hmem call' rfl)
  cases hstopped : r.stopped with
  | true =>
    obtain ⟨pending', now, hmoves, hnone⟩ :=
      moves_quiet pj alloc handlers htracked .poll (.inr hstopped)
    rw [hmoves.events, List.append_assoc] at h
    obtain ⟨middle, hmiddle⟩ := split_right h hnotOld
    obtain ⟨middle', hmiddle'⟩ := split_left hmiddle (hopen event)
    have hmem : .closed call' event ∈ now := hmiddle' ▸ List.mem_append_right _ List.mem_cons_self
    cases hnone _ hmem
  | false =>
    obtain ⟨others, hmoves, -, hothers⟩ := moves_poll pj alloc handlers htracked hstopped
    rw [hmoves.events, ← List.append_assoc, List.append_assoc _ others] at h
    have hnotRest : .closed call' event ∉ others ++ later := fun hmem =>
      (List.mem_append.mp hmem).elim (fun hmem => hothers _ hmem _ _ rfl) (hopen event)
    obtain ⟨middle, hmiddle⟩ := split_left h hnotRest
    intro hmem
    have hbefore : .caused call e ∈ r.shim.world.events ++ r.ioCommands.flatMap (closedEvents ε) :=
      hmiddle ▸ List.mem_append_left _ hmem
    rcases List.mem_append.mp hbefore with hold | hclosed
    · exact Nat.not_lt_of_le hcall (hfresh _ hold call rfl)
    · obtain ⟨t, -, hevent⟩ := List.mem_flatMap.mp hclosed
      obtain ⟨closed, -, hcontra⟩ := Option.map_eq_some_iff.mp (Option.mem_toList.mp hevent)
      cases hcontra

/-- **The order of a close event.** A packet of a TCP association is put into the channel, and later
the close of that association. If a poll lies between the two and the packet does not wait for a lookup
when the close is put into the channel, no event of the packet comes after the close event. If no poll
lies between them, no event of the packet comes before it. -/
theorem close_event_order (before mid after : List IoOp) (associationId : ℕ)
    (localAddr remoteAddr localAddr' remoteAddr' : SocketAddr) (data : Bytes) (status : Int)
    (event : ClosedEvent) (pre post : List (AppEvent ε))
    (h : events pj alloc handlers
        (before ++ .enqueue (.receive associationId .tcp localAddr remoteAddr data) :: mid ++
          .enqueue (.transportClosed associationId .tcp localAddr' remoteAddr' status) :: after) =
      pre ++ .closed (before.length + 1 + mid.length) event :: post) :
    (.poll ∈ mid → ¬Deferred handlers before.length (runIo pj alloc handlers
        (before ++ .enqueue (.receive associationId .tcp localAddr remoteAddr data) :: mid)) →
      ∀ e, .caused before.length e ∉ post) ∧
      (.poll ∉ mid → ∀ e, .caused before.length e ∉ pre) := by
  constructor
  · intro hpoll hwaits e
    obtain ⟨mid, mid', rfl⟩ := List.append_of_mem hpoll
    have hassoc : ∀ packet, before ++ packet :: (mid ++ IoOp.poll :: mid') =
        (before ++ packet :: mid) ++ .poll :: mid' := fun packet => by
      rw [List.append_assoc, List.cons_append]
    rw [hassoc] at h hwaits
    have hlength : before.length + 1 + (mid ++ IoOp.poll :: mid').length =
        ((before ++ .enqueue (.receive associationId .tcp localAddr remoteAddr data) :: mid) ++
          .poll :: mid').length := by
      simp
      omega
    rw [hlength] at h
    exact caused_not_after pj alloc handlers (by simp) hwaits h e
  · intro hmid e
    have hquiet : ∀ {command command' rest}, .poll ∉ rest →
        IoOp.poll ∉ .enqueue command :: mid ++ .enqueue command' :: rest := by
      intro command command' rest hrest
      simp [hmid, hrest]
    by_cases hpoll : .poll ∈ after
    · obtain ⟨after, rest, rfl, hafter⟩ := List.eq_append_cons_of_mem hpoll
      rw [← List.cons_append, ← List.append_assoc, List.append_assoc before] at h
      refine caused_not_before pj alloc handlers (hquiet hafter) (Nat.le_refl _) ?_ ?_ h e
      · omega
      · simp
        omega
    · rw [List.append_assoc before] at h
      have hlt := fresh_of_no_poll pj alloc handlers before (hquiet hpoll) _
        (h ▸ List.mem_append_right _ List.mem_cons_self) _ rfl
      omega

end

/-- Handlers that emit one event for each packet and let nothing wait. -/
def sampleHandlers : Handlers Unit Unit where
  init := ()
  handle _ t :=
    match t.item with
    | .receive _ => ((), [(some t.call, ())])
    | _ => ((), [])
  rest _ := ((), [])
  release _ _ := ((), [])
  waiting _ := []
  init_waiting := rfl
  handle_waiting _ t := List.nil_subset _
  handle_causes _ t e he call hcall := by
    cases hitem : t.item with
    | receive =>
      simp only [hitem, List.mem_singleton] at he
      obtain rfl := he
      exact List.mem_singleton.mpr (Option.some.inj hcall).symm
    | auth | completion | close | message | invite | dialog | inviteResponse | subscribe =>
      simp [hitem] at he
  rest_waiting _ := List.nil_subset _
  rest_causes _ e he := absurd he List.not_mem_nil

/-- An address. -/
def sampleAddr : SocketAddr := ⟨true, [49], 5060⟩

/-- A packet of association 7. -/
def samplePacket : IoOp := .enqueue (.receive 7 .tcp sampleAddr sampleAddr [1])

/-- The close of association 7. -/
def sampleClosed : IoOp := .enqueue (.transportClosed 7 .tcp sampleAddr sampleAddr 1)

theorem close_event_order_sample : events samplePjsip (fun _ => ⟨true, true⟩) sampleHandlers
        [samplePacket, .poll, sampleClosed, samplePacket, .poll] =
        [.caused 0 (), .closed 2 ⟨7, .tcp, sampleAddr, sampleAddr, 1⟩, .caused 3 ()] ∧
      ∀ e, .caused 0 e ∉ [AppEvent.caused 3 ()] :=
  ⟨rfl, (close_event_order samplePjsip (fun _ => ⟨true, true⟩) sampleHandlers [] [.poll]
    [samplePacket, .poll] 7 sampleAddr sampleAddr sampleAddr sampleAddr [1] 1
    ⟨7, .tcp, sampleAddr, sampleAddr, 1⟩ [.caused 0 ()] [.caused 3 ()] rfl).1 List.mem_cons_self
    fun hwaits => absurd hwaits.2 List.not_mem_nil⟩

end GmvPjsip.Io
