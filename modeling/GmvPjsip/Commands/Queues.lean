import GmvPjsip.Commands.Payload
import GmvPjsip.Lib.LinkedQueue
import Mathlib.Data.List.Induction

/-!
# The nine command queues

A runtime has nine queues, each a head and a tail pointer with push, detach and release code of its
own. The owner thread makes one call after the other: it submits, polls, starts and stops, and a
callback it gets in a poll only sends to a channel.

* `Queues` are the pointers. `processIoCommands` detaches eight queues and runs them kind by kind;
  `processAuthCommands` does the ninth.
* `Sys` is a runtime with its queues. What the handlers do is a parameter: an `Owner` has a world of
  its own, which it changes for each command it is handed.
* `Ledger` is what the queues are for: one list of the commands accepted and not handed over yet.
* `run_refines_ledger`: whatever the owner does, the pointers do to its world what the list does.
-/

namespace GmvPjsip.Commands

open GmvPjsip.Auth
open GmvPjsip.Lib

/-! ## The queues -/

/-- A command with the number of the call that submitted it. The number is written and never read
by the code. -/
structure Tagged (α : Type) where
  call : ℕ
  item : α
  deriving DecidableEq, Repr

/-- The head and tail pointers of a `gmv_sip_runtime`. -/
structure Queues where
  command : LinkedQueue (Tagged AuthCommand)
  receive : LinkedQueue (Tagged ReceiveCommand)
  completion : LinkedQueue (Tagged SendCompletionCommand)
  close : LinkedQueue (Tagged CloseCommand)
  message : LinkedQueue (Tagged MessageCommand)
  invite : LinkedQueue (Tagged InviteCommand)
  dialog : LinkedQueue (Tagged DialogCommand)
  inviteResponse : LinkedQueue (Tagged InviteResponseCommand)
  subscribe : LinkedQueue (Tagged SubscribeCommand)

/-- All eighteen pointers are null. -/
def Queues.empty : Queues where
  command := .empty
  receive := .empty
  completion := .empty
  close := .empty
  message := .empty
  invite := .empty
  dialog := .empty
  inviteResponse := .empty
  subscribe := .empty

/-- The end of each submit function: queue the command with the others of its kind. -/
def Queues.push (q : Queues) (call : ℕ) : Command → Queues
  | .auth c => { q with command := q.command.push ⟨call, c⟩ }
  | .receive c => { q with receive := q.receive.push ⟨call, c⟩ }
  | .completion c => { q with completion := q.completion.push ⟨call, c⟩ }
  | .close c => { q with close := q.close.push ⟨call, c⟩ }
  | .message c => { q with message := q.message.push ⟨call, c⟩ }
  | .invite c => { q with invite := q.invite.push ⟨call, c⟩ }
  | .dialog c => { q with dialog := q.dialog.push ⟨call, c⟩ }
  | .inviteResponse c => { q with inviteResponse := q.inviteResponse.push ⟨call, c⟩ }
  | .subscribe c => { q with subscribe := q.subscribe.push ⟨call, c⟩ }

/-- The commands of one queue, as the handlers get them. -/
def wrapAll {α : Type} (wrap : α → Command) (commands : List (Tagged α)) : List (Tagged Command) :=
  commands.map fun t => ⟨t.call, wrap t.item⟩

/-- Detach eight queues and run their commands; the list is the order in which the handlers are
called. Source: `shim.c`, `gmv_process_io_commands` -/
def processIoCommands (q : Queues) : List (Tagged Command) × Queues :=
  let (receiveCommands, receive) := q.receive.detach
  let (completionCommands, completion) := q.completion.detach
  let (closeCommands, close) := q.close.detach
  let (messageCommands, message) := q.message.detach
  let (inviteCommands, invite) := q.invite.detach
  let (dialogCommands, dialog) := q.dialog.detach
  let (inviteResponseCommands, inviteResponse) := q.inviteResponse.detach
  let (subscribeCommands, subscribe) := q.subscribe.detach
  (wrapAll .completion completionCommands ++ (wrapAll .receive receiveCommands ++
    (wrapAll .close closeCommands ++ (wrapAll .message messageCommands ++
    (wrapAll .invite inviteCommands ++ (wrapAll .dialog dialogCommands ++
    (wrapAll .inviteResponse inviteResponseCommands ++
    wrapAll .subscribe subscribeCommands)))))),
   ⟨q.command, receive, completion, close, message, invite, dialog, inviteResponse, subscribe⟩)

/-- Source: `shim_auth.inc`, `gmv_process_auth_commands` -/
def processAuthCommands (q : Queues) : List (Tagged Command) × Queues :=
  let (commands, command) := q.command.detach
  (wrapAll .auth commands, { q with command := command })

/-- Source: `shim.c`, `gmv_sip_runtime_poll` -/
def processCommands (q : Queues) : List (Tagged Command) × Queues :=
  let (ioCommands, q') := processIoCommands q
  let (authCommands, q'') := processAuthCommands q'
  (ioCommands ++ authCommands, q'')

/-- Free what is queued. The list is what is freed.
Source: `shim.c`, `gmv_runtime_release` -/
def releaseQueues (q : Queues) : List (Tagged Command) × Queues :=
  let (authCommands, command) := q.command.release
  let (receiveCommands, receive) := q.receive.release
  let (completionCommands, completion) := q.completion.release
  let (closeCommands, close) := q.close.release
  let (messageCommands, message) := q.message.release
  let (inviteCommands, invite) := q.invite.release
  let (dialogCommands, dialog) := q.dialog.release
  let (inviteResponseCommands, inviteResponse) := q.inviteResponse.release
  let (subscribeCommands, subscribe) := q.subscribe.release
  (wrapAll .auth authCommands ++ (wrapAll .receive receiveCommands ++
    (wrapAll .completion completionCommands ++ (wrapAll .close closeCommands ++
    (wrapAll .message messageCommands ++ (wrapAll .invite inviteCommands ++
    (wrapAll .dialog dialogCommands ++ (wrapAll .inviteResponse inviteResponseCommands ++
    wrapAll .subscribe subscribeCommands))))))),
   ⟨command, receive, completion, close, message, invite, dialog, inviteResponse, subscribe⟩)

/-! ## Runs -/

/-- What the owner thread does with its world when a runtime starts, when a handler gets a command,
and when a runtime is released and its queued commands are freed. -/
structure Owner (σ : Type) where
  start : σ → σ
  handle : σ → Tagged Command → σ
  release : σ → List (Tagged Command) → σ

/-- A runtime, the number of calls so far and the world of its owner. -/
structure Sys (σ : Type) where
  started : Bool
  queues : Queues
  calls : ℕ
  world : σ

/-- A call. `status` is what initialising PJSIP ends with. -/
inductive Op
  | start (status : PjStatus)
  | stop
  | poll
  | submit (alloc : Alloc) (call : Submission)
  deriving DecidableEq, Repr

section
variable {σ : Type} (pj : Pjsip) (owner : Owner σ)

/-- Source: `shim.c`, `gmv_runtime_release` -/
def Sys.release (s : Sys σ) : Sys σ :=
  let (commands, queues) := releaseQueues s.queues
  { s with started := false, queues := queues, world := owner.release s.world commands }

/-- Source: `shim.c`, `gmv_sip_runtime_start` -/
def Sys.start (status : PjStatus) (s : Sys σ) : Sys σ :=
  if s.started then s
  else if status ≠ .success then s.release owner
  else { s with started := true, world := owner.start s.world }

/-- Source: `shim.c`, `gmv_sip_runtime_stop` -/
def Sys.stop (s : Sys σ) : Sys σ :=
  if !s.started then s else s.release owner

/-- Source: `shim.c`, `gmv_sip_runtime_poll` -/
def Sys.poll (s : Sys σ) : Sys σ :=
  if !s.started then s
  else
    let (commands, queues) := processCommands s.queues
    { s with queues := queues, world := commands.foldl owner.handle s.world }

/-- Submit a command, and what the call returns: `PJ_SUCCESS` is `ok`. -/
def Sys.submit (alloc : Alloc) (call : Submission) (s : Sys σ) : Except Refusal Unit × Sys σ :=
  match call.command pj alloc s.started with
  | .error refusal => (.error refusal, s)
  | .ok command => (.ok (), { s with queues := s.queues.push s.calls command })

/-- One call. -/
def step (s : Sys σ) (op : Op) : Sys σ :=
  let s' := match op with
    | .start status => s.start owner status
    | .stop => s.stop owner
    | .poll => s.poll owner
    | .submit alloc call => (s.submit pj alloc call).2
  { s' with calls := s.calls + 1 }

/-- A runtime that was just created. -/
def Sys.init (world : σ) : Sys σ := ⟨false, .empty, 0, world⟩

/-- A list of calls on a new runtime. -/
def run (world : σ) (ops : List Op) : Sys σ := ops.foldl (step pj owner) (Sys.init world)

end

/-! ## The ledger -/

/-- The kinds of commands, one for each queue. -/
inductive Kind
  | auth
  | receive
  | completion
  | close
  | message
  | invite
  | dialog
  | inviteResponse
  | subscribe
  deriving DecidableEq, Repr

/-- The queue a command goes to. -/
def Command.kind : Command → Kind
  | .auth _ => .auth
  | .receive _ => .receive
  | .completion _ => .completion
  | .close _ => .close
  | .message _ => .message
  | .invite _ => .invite
  | .dialog _ => .dialog
  | .inviteResponse _ => .inviteResponse
  | .subscribe _ => .subscribe

/-- The order in which a poll runs the kinds. -/
def pollOrder : List Kind :=
  [.completion, .receive, .close, .message, .invite, .dialog, .inviteResponse, .subscribe, .auth]

/-- The order in which a release frees the kinds. -/
def releaseOrder : List Kind :=
  [.auth, .receive, .completion, .close, .message, .invite, .dialog, .inviteResponse, .subscribe]

/-- The commands of one kind. -/
def ofKind (kind : Kind) (commands : List (Tagged Command)) : List (Tagged Command) :=
  commands.filter fun t => t.item.kind = kind

/-- Sort commands by kind; those of one kind keep their order. -/
def byKind (order : List Kind) (commands : List (Tagged Command)) : List (Tagged Command) :=
  order.flatMap fun kind => ofKind kind commands

theorem byKind_append (order order' : List Kind) (commands : List (Tagged Command)) :
    byKind (order ++ order') commands = byKind order commands ++ byKind order' commands :=
  List.flatMap_append

variable {commands pending : List (Tagged Command)} {q : Queues}

theorem mem_byKind {order : List Kind} {t : Tagged Command} :
    t ∈ byKind order commands ↔ t.item.kind ∈ order ∧ t ∈ commands := by
  simp only [byKind, ofKind, List.mem_flatMap, List.mem_filter, decide_eq_true_eq]
  constructor
  · rintro ⟨kind, hkind, hmem, rfl⟩
    exact ⟨hkind, hmem⟩
  · rintro ⟨hkind, hmem⟩
    exact ⟨_, hkind, hmem, rfl⟩

/-- The runtime without its pointers: the commands that were accepted and that no poll has handed
over, in the order they came. -/
structure Ledger (σ : Type) where
  started : Bool
  pending : List (Tagged Command)
  calls : ℕ
  world : σ

section
variable {σ : Type} (pj : Pjsip) (owner : Owner σ)

/-- Free everything. -/
def Ledger.release (l : Ledger σ) : Ledger σ :=
  { l with
    started := false
    pending := []
    world := owner.release l.world (byKind releaseOrder l.pending) }

/-- Start. -/
def Ledger.start (status : PjStatus) (l : Ledger σ) : Ledger σ :=
  if l.started then l
  else if status ≠ .success then l.release owner
  else { l with started := true, world := owner.start l.world }

/-- Stop. -/
def Ledger.stop (l : Ledger σ) : Ledger σ := if !l.started then l else l.release owner

/-- Hand over everything that is pending. -/
def Ledger.poll (l : Ledger σ) : Ledger σ :=
  if !l.started then l
  else { l with
    pending := []
    world := (byKind pollOrder l.pending).foldl owner.handle l.world }

/-- Note an accepted command. -/
def Ledger.submit (alloc : Alloc) (call : Submission) (l : Ledger σ) : Ledger σ :=
  match call.command pj alloc l.started with
  | .error _ => l
  | .ok command => { l with pending := l.pending ++ [⟨l.calls, command⟩] }

/-- One call on the ledger. -/
def Ledger.step (l : Ledger σ) (op : Op) : Ledger σ :=
  let l' := match op with
    | .start status => l.start owner status
    | .stop => l.stop owner
    | .poll => l.poll owner
    | .submit alloc call => l.submit pj alloc call
  { l' with calls := l.calls + 1 }

/-- A list of calls on the ledger. -/
def ledger (world : σ) (ops : List Op) : Ledger σ :=
  ops.foldl (Ledger.step pj owner) ⟨false, [], 0, world⟩

end

/-! ## The pointers hold what the ledger lists -/

/-- A queue holds these commands. -/
def Carries {α : Type} (q : LinkedQueue (Tagged α)) (wrap : α → Command)
    (commands : List (Tagged Command)) : Prop :=
  ∃ content, q.Represents content ∧ wrapAll wrap content = commands

section
variable {α : Type} {q : LinkedQueue (Tagged α)} {wrap : α → Command}
  {commands : List (Tagged Command)}

theorem Carries.push (h : Carries q wrap commands) (call : ℕ) (command : α) :
    Carries (q.push ⟨call, command⟩) wrap (commands ++ [⟨call, wrap command⟩]) := by
  obtain ⟨content, hcontent, rfl⟩ := h
  exact ⟨content ++ [⟨call, command⟩], hcontent.push _, by simp [wrapAll]⟩

theorem Carries.detach (h : Carries q wrap commands) :
    wrapAll wrap q.detach.1 = commands ∧ Carries q.detach.2 wrap [] := by
  obtain ⟨content, hcontent, rfl⟩ := h
  obtain ⟨hlist, hempty⟩ := hcontent.detach
  exact ⟨by rw [hlist], [], hempty, rfl⟩

theorem Carries.release (h : Carries q wrap commands) :
    wrapAll wrap q.release.1 = commands ∧ Carries q.release.2 wrap [] := by
  obtain ⟨content, hcontent, rfl⟩ := h
  obtain ⟨hlist, hempty⟩ := hcontent.release
  exact ⟨by rw [hlist], [], hempty, rfl⟩

end

/-- The queue of this kind holds these commands. -/
def Queues.CarriesKind (q : Queues) : Kind → List (Tagged Command) → Prop
  | .auth => Carries q.command .auth
  | .receive => Carries q.receive .receive
  | .completion => Carries q.completion .completion
  | .close => Carries q.close .close
  | .message => Carries q.message .message
  | .invite => Carries q.invite .invite
  | .dialog => Carries q.dialog .dialog
  | .inviteResponse => Carries q.inviteResponse .inviteResponse
  | .subscribe => Carries q.subscribe .subscribe

/-- Every queue holds the pending commands of its kind. -/
def Queues.Holds (q : Queues) (pending : List (Tagged Command)) : Prop :=
  ∀ kind, q.CarriesKind kind (ofKind kind pending)

theorem holds_empty : Queues.empty.Holds [] := by
  intro kind
  cases kind <;> exact ⟨[], LinkedQueue.represents_empty, rfl⟩

/-- A push extends the queue of its kind. -/
theorem carriesKind_push {command : Command} (h : q.CarriesKind command.kind commands) (call : ℕ) :
    (q.push call command).CarriesKind command.kind (commands ++ [⟨call, command⟩]) := by
  cases command <;> exact Carries.push h call _

/-- And leaves the others alone. -/
theorem carriesKind_push_of_ne {kind : Kind} {command : Command} (h : q.CarriesKind kind commands)
    (hne : kind ≠ command.kind) (call : ℕ) : (q.push call command).CarriesKind kind commands := by
  cases command <;> cases kind <;> first | exact h | exact absurd rfl hne

theorem ofKind_append (kind : Kind) (commands commands' : List (Tagged Command)) :
    ofKind kind (commands ++ commands') = ofKind kind commands ++ ofKind kind commands' :=
  List.filter_append ..

/-- **Queueing appends to the pending commands.** -/
theorem Queues.Holds.push (h : q.Holds pending) (call : ℕ) (command : Command) :
    (q.push call command).Holds (pending ++ [⟨call, command⟩]) := by
  intro kind
  rw [ofKind_append]
  by_cases hkind : kind = command.kind
  · subst hkind
    have hself : ofKind command.kind [⟨call, command⟩] = [⟨call, command⟩] := by simp [ofKind]
    rw [hself]
    exact carriesKind_push (h _) call
  · have hother : ofKind kind [⟨call, command⟩] = [] := by simp [ofKind, Ne.symm hkind]
    rw [hother, List.append_nil]
    exact carriesKind_push_of_ne (h kind) hkind call

/-- **A poll hands over the pending commands**, kind by kind. -/
theorem Queues.Holds.processCommands (h : q.Holds pending) :
    (processCommands q).1 = byKind pollOrder pending ∧ (processCommands q).2.Holds [] := by
  constructor
  · simp only [Commands.processCommands, processIoCommands, processAuthCommands,
      (Carries.detach (h .auth)).1, (Carries.detach (h .receive)).1,
      (Carries.detach (h .completion)).1, (Carries.detach (h .close)).1,
      (Carries.detach (h .message)).1, (Carries.detach (h .invite)).1,
      (Carries.detach (h .dialog)).1, (Carries.detach (h .inviteResponse)).1,
      (Carries.detach (h .subscribe)).1, byKind, pollOrder, List.flatMap_cons, List.flatMap_nil,
      List.append_assoc, List.append_nil]
  · intro kind
    have hkind := h kind
    cases kind <;> exact (Carries.detach hkind).2

/-- **A release frees the pending commands.** -/
theorem Queues.Holds.releaseQueues (h : q.Holds pending) :
    (releaseQueues q).1 = byKind releaseOrder pending ∧ (releaseQueues q).2.Holds [] := by
  constructor
  · simp only [Commands.releaseQueues, (Carries.release (h .auth)).1,
      (Carries.release (h .receive)).1, (Carries.release (h .completion)).1,
      (Carries.release (h .close)).1, (Carries.release (h .message)).1,
      (Carries.release (h .invite)).1, (Carries.release (h .dialog)).1,
      (Carries.release (h .inviteResponse)).1, (Carries.release (h .subscribe)).1, byKind,
      releaseOrder, List.flatMap_cons, List.flatMap_nil, List.append_nil]
  · intro kind
    have hkind := h kind
    cases kind <;> exact (Carries.release hkind).2

/-! ## The refinement -/

section
variable {σ : Type} {pj : Pjsip} {owner : Owner σ}

/-- A runtime and a ledger that agree. -/
structure Refines (s : Sys σ) (l : Ledger σ) : Prop where
  started : s.started = l.started
  queues : s.queues.Holds l.pending
  calls : s.calls = l.calls
  world : s.world = l.world

theorem Refines.release {s : Sys σ} {l : Ledger σ} (h : Refines s l) :
    Refines (s.release owner) (l.release owner) := by
  obtain ⟨hcommands, hempty⟩ := h.queues.releaseQueues
  refine ⟨rfl, hempty, h.calls, ?_⟩
  show owner.release s.world (Commands.releaseQueues s.queues).1 =
    owner.release l.world (byKind releaseOrder l.pending)
  rw [hcommands, h.world]

/-- **One call.** -/
theorem Refines.step {s : Sys σ} {l : Ledger σ} (h : Refines s l) (op : Op) :
    Refines (step pj owner s op) (l.step pj owner op) := by
  -- only the part before the call is counted differs from op to op
  have hcount : ∀ {s' : Sys σ} {l' : Ledger σ}, Refines s' l' →
      Refines { s' with calls := s.calls + 1 } { l' with calls := l.calls + 1 } :=
    fun h' => ⟨h'.started, h'.queues, congrArg (· + 1) h.calls, h'.world⟩
  apply hcount
  cases op with
  | start =>
    simp only [Sys.start, Ledger.start, h.started]
    split_ifs
    · exact h
    · exact h.release
    · exact ⟨rfl, h.queues, h.calls, congrArg owner.start h.world⟩
  | stop =>
    simp only [Sys.stop, Ledger.stop, h.started]
    split_ifs
    · exact h
    · exact h.release
  | poll =>
    obtain ⟨hcommands, hempty⟩ := h.queues.processCommands
    simp only [Sys.poll, Ledger.poll, h.started]
    split_ifs
    · exact h
    · exact ⟨rfl, hempty, h.calls, by simp only [hcommands, h.world]⟩
  | submit alloc call =>
    simp only [Sys.submit, Ledger.submit, h.started]
    cases call.command pj alloc l.started with
    | error refusal => exact h
    | ok command => exact ⟨rfl, h.calls ▸ h.queues.push _ _, h.calls, h.world⟩

/-- **The pointers do what the ledger says**, for every list of calls and every owner. -/
theorem run_refines_ledger (world : σ) (ops : List Op) :
    Refines (run pj owner world ops) (ledger pj owner world ops) := by
  induction ops using List.reverseRecOn with
  | nil => exact ⟨rfl, holds_empty, rfl, rfl⟩
  | append_singleton ops op ih =>
    simp only [run, ledger, List.foldl_append, List.foldl_cons, List.foldl_nil]
    exact ih.step op

end

end GmvPjsip.Commands
