import GmvPjsip.Auth.Moves
import GmvPjsip.Io.Drain

/-!
# The registrar behind the command queues

The handlers of the shim, as far as they handle REGISTER: a packet that is one may wait for its lookup,
and is reported when the lookup is completed or times out, in a later poll.

* `Registrar` is the runtime of the registrar, with the call whose packet each transaction answers.
* `Since` says what lies between two ledgers of the registrar; it follows from their being connected by
  moves, `since_of_moves`.
* `registrar` are its handlers. The calls that wait are those of the queued REGISTERs, so that its
  events and its queue meet what `Handlers` asks for.
* `close_overtakes_traffic`: the application hears of a close before it hears of a packet that came
  before it, if both are drained by one poll, and also if the packet was handled in an earlier poll and
  waits for its lookup.
-/

namespace GmvPjsip.Io

open GmvPjsip.Auth
open GmvPjsip.Commands

/-! ## The code -/

/-- The runtime of the registrar. `callOf` and `polls` are written and never read by the code. -/
structure Registrar where
  auth : Auth.Sys
  /-- The call whose packet a transaction answers. -/
  callOf : ℕ → ℕ
  /-- The number of polls so far. -/
  polls : ℕ

/-- What the registrar meets outside the shim: for each packet, for each completion and transaction, and
for each poll and transaction. -/
structure RegistrarEnv where
  register : ℕ → RegisterEnv
  complete : ℕ → ℕ → CompleteEnv
  now : ℕ → ℕ
  purgeNow : ℕ → ℕ
  expire : ℕ → ℕ → SendEnv

/-- The events of a list of actions. -/
def emittedBy (actions : List Action) : List Event :=
  actions.filterMap fun
    | .emit event => some event
    | _ => none

/-- The events of a record: those of an arrival are of the packet at hand, those of an entry that leaves
the queue of the packet it was queued for. -/
def causesOf (callOf : ℕ → ℕ) (call : Option ℕ) : Record → List (Option ℕ × Event)
  | .answered _ actions => (emittedBy actions).map (call, ·)
  | .queued _ _ actions => (emittedBy actions).map (call, ·)
  | .left p _ actions => (emittedBy actions).map (some (callOf p.transaction), ·)
  | .processed _ => []
  | .stopped _ => []

/-- The events between two states, in the order they were emitted. -/
def eventsSince (s s' : Auth.Sys) (callOf : ℕ → ℕ) (call : Option ℕ) : List (Option ℕ × Event) :=
  (s'.history.take (s'.history.length - s.history.length)).reverse.flatMap (causesOf callOf call)

/-- Where a packet comes from. -/
def ReceiveCommand.origin (command : ReceiveCommand) : Origin :=
  ⟨command.transport, command.associationId, command.remoteAddress, command.remotePort⟩

/-- The runtime goes on. The transactions it opens on the way answer the packet at hand, if there is one.
-/
def Registrar.advance (w : Registrar) (call : Option ℕ) (auth : Auth.Sys) :
    Registrar × List (Option ℕ × Event) :=
  let callOf n := if w.auth.transactions ≤ n then call.getD (w.callOf n) else w.callOf n
  (⟨auth, callOf, w.polls⟩, eventsSince w.auth auth callOf call)

section
variable (pj : Pjsip) (env : RegistrarEnv)

/-- The registrar handles a command: a packet that is one message, or a completion.
Source: `shim.c`, `gmv_process_receive_commands`; `shim_auth.inc`, `gmv_process_auth_commands` -/
def Registrar.handle (w : Registrar) (t : Tagged Command) : Registrar × List (Option ℕ × Event) :=
  match t.item with
  | .receive command => w.advance (some t.call) <| whenStarted w.auth <| Auth.receivePacket pj
      (env.register t.call) w.auth (ReceiveCommand.origin command) command.data
  | .auth command => w.advance none (processAuthCommand pj (env.complete t.call) w.auth command)
  | _ => (w, [])

/-- The registrar in the rest of a poll. Source: `shim_auth.inc`, `gmv_process_auth_timeouts` -/
def Registrar.rest (w : Registrar) : Registrar × List (Option ℕ × Event) :=
  let (w', events) := w.advance none (processAuthTimeouts pj (env.now w.polls) (env.purgeNow w.polls)
    (env.expire w.polls) w.auth)
  ({ w' with polls := w.polls + 1 }, events)

/-- The calls whose REGISTER is in the queue. -/
def Registrar.waiting (w : Registrar) : List ℕ :=
  w.auth.runtime.pendingAuth.map fun p => w.callOf p.transaction

end

/-! ## Who waits -/

/-- An entry of the queue, or one of a transaction that was opened since. -/
def EntryOf (a b : Ledger) (p : PendingAuth) : Prop :=
  p ∈ a.core.pending ∨ a.transactions ≤ p.transaction ∧ p.transaction < b.transactions

/-- What lies between two ledgers: what is in the queue at the end, and what left it on the way, was in it
at the beginning or is of a transaction opened since. -/
structure Since (a b : Ledger) (records : List Record) : Prop where
  history : b.history = records ++ a.history
  transactions : a.transactions ≤ b.transactions
  pending : ∀ p ∈ b.core.pending, EntryOf a b p
  left : ∀ p cause actions, .left p cause actions ∈ records → EntryOf a b p

section
variable {pj : Pjsip} {a b c : Ledger}

theorem Since.trans {records records' : List Record} (h : Since a b records)
    (h' : Since b c records') : Since a c (records' ++ records) := by
  have hfirst : ∀ p, EntryOf a b p → EntryOf a c p := fun p =>
    .imp_right <| .imp_right fun hlt => Nat.lt_of_lt_of_le hlt h'.transactions
  have hboth : ∀ p, EntryOf b c p → EntryOf a c p := fun p hp => hp.elim
    (fun hold => hfirst p (h.pending p hold)) fun hnew => .inr (hnew.imp_left (Nat.le_trans h.transactions))
  refine ⟨?_, Nat.le_trans h.transactions h'.transactions, fun p hp => hboth p (h'.pending p hp), ?_⟩
  · rw [h'.history, h.history, List.append_assoc]
  · intro p cause actions hp
    rcases List.mem_append.mp hp with hlater | hearlier
    · exact hboth p (h'.left p cause actions hlater)
    · exact hfirst p (h.left p cause actions hearlier)

theorem since_of_move (hmove : Auth.Move pj a b) : ∃ records, Since a b records := by
  have hnone : ∀ p cause actions, Record.left p cause actions ∈ [] → EntryOf a b p :=
    fun _ _ _ h => absurd h List.not_mem_nil
  -- no other record is one of an entry that left
  have hother : ∀ r : Record, (∀ p cause actions, r ≠ .left p cause actions) →
      ∀ p cause actions, .left p cause actions ∈ [r] → EntryOf a b p :=
    fun r hr p cause actions h => absurd (List.mem_singleton.mp h).symm (hr p cause actions)
  cases hmove with
  | purge | start => exact ⟨[], rfl, le_rfl, fun p => .inl, hnone⟩
  | answer rx actions =>
    exact ⟨_, rfl, Nat.le_succ _, fun p => .inl,
      hother (.answered rx actions) fun _ _ _ => Record.noConfusion⟩
  | enter rx p actions core' _ _ _ henters =>
    refine ⟨_, rfl, Nat.le_succ _, fun q hq => ?_,
      hother (.queued p rx actions) fun _ _ _ => Record.noConfusion⟩
    rw [henters.core'] at hq
    rcases List.mem_cons.mp hq with rfl | hold
    · have hown := henters.transaction
      exact .inr ⟨Nat.le_of_eq hown.symm, Nat.lt_succ_of_le (Nat.le_of_eq hown)⟩
    · exact .inl hold
  | complete env kept rest p command rx verdict nonces status core' actions hpending _ hcompletes =>
    refine ⟨[_], rfl, le_rfl, fun q hq => .inl ?_, fun q cause actions hq => .inl ?_⟩
    · rw [hcompletes.core'] at hq
      exact unlinked_subset hpending hq
    · cases List.mem_singleton.mp hq
      simp [hpending]
  | terminate kept rest p _ hpending | expire kept rest p _ _ hpending =>
    refine ⟨[_], rfl, le_rfl, fun q hq => .inl (unlinked_subset hpending hq),
      fun q cause actions hq => .inl ?_⟩
    cases List.mem_singleton.mp hq
    simp [hpending]
  | finish command =>
    exact ⟨_, rfl, le_rfl, fun p => .inl, hother (.processed command) fun _ _ _ => Record.noConfusion⟩
  | release =>
    exact ⟨_, rfl, le_rfl, fun _ hp => absurd hp List.not_mem_nil,
      hother (.stopped a.core.pending) fun _ _ _ => Record.noConfusion⟩

/-- **Moves add to the history, and entries that leave were there.** -/
theorem since_of_moves (hmoves : Auth.Moves pj a b) : ∃ records, Since a b records := by
  induction hmoves with
  | refl => exact ⟨[], rfl, le_rfl, fun p => .inl, fun _ _ _ h => absurd h List.not_mem_nil⟩
  | tail _ hmove ih =>
    obtain ⟨records, h⟩ := ih
    obtain ⟨records', h'⟩ := since_of_move hmove
    exact ⟨_, h.trans h'⟩

end

/-- What leaves the queue opens no transaction. -/
theorem sweepPending_transactions (due : PendingAuth → Bool)
    (resolve : Auth.Sys → PendingAuth → Auth.Sys)
    (hresolve : ∀ s p, (resolve s p).transactions = s.transactions) (kept cursor : List PendingAuth)
    (s : Auth.Sys) : (sweepPending due resolve kept cursor s).transactions = s.transactions := by
  induction cursor generalizing kept s with
  | nil => rfl
  | cons p rest ih =>
    rw [sweepPending]
    split_ifs
    · exact ih _ s
    · exact (ih _ _).trans (hresolve _ p)

/-- **The runtime goes on by moves.** Only the packet at hand begins to wait, and events are of that packet
or of packets that waited. -/
theorem Registrar.advance_spec {pj : Pjsip} {w : Registrar} {call : Option ℕ} {auth : Auth.Sys}
    (hmoves : Auth.Moves pj w.auth.ledger auth.ledger)
    (hcall : call = none → auth.transactions = w.auth.transactions) :
    (w.advance call auth).1.waiting ⊆ call.toList ++ w.waiting ∧
      ∀ e ∈ (w.advance call auth).2, ∀ n, e.1 = some n → n ∈ call.toList ++ w.waiting := by
  obtain ⟨records, hsince⟩ := since_of_moves hmoves
  have hentry : ∀ p, EntryOf w.auth.ledger auth.ledger p →
      (w.advance call auth).1.callOf p.transaction ∈ call.toList ++ w.waiting := by
    intro p hp
    cases call with
    | none =>
      have hold : p ∈ w.auth.runtime.pendingAuth := hp.resolve_right fun ⟨hle, hlt⟩ =>
        absurd (hcall rfl) (Nat.ne_of_gt (Nat.lt_of_le_of_lt hle hlt))
      simp only [Registrar.advance, Option.getD_none, ite_self]
      exact List.mem_map_of_mem hold
    | some n =>
      simp only [Registrar.advance, Option.getD_some]
      split_ifs with hnew
      · exact List.mem_cons_self
      · exact List.mem_cons_of_mem _ (List.mem_map_of_mem (hp.resolve_right fun h => hnew h.1))
  refine ⟨fun n hn => ?_, fun e he n hn => ?_⟩
  · obtain ⟨p, hp, rfl⟩ := List.mem_map.mp hn
    exact hentry p (hsince.pending p hp)
  · have hevents : (w.advance call auth).2 =
        records.reverse.flatMap (causesOf (w.advance call auth).1.callOf call) := by
      have hhistory : auth.history = records ++ w.auth.history := hsince.history
      simp only [Registrar.advance, eventsSince]
      rw [hhistory, List.length_append, Nat.add_sub_cancel, List.take_left]
    rw [hevents] at he
    obtain ⟨r, hr, hmem⟩ := List.mem_flatMap.mp he
    cases r with
    | answered rx actions | queued p rx actions =>
      obtain ⟨event, -, rfl⟩ := List.mem_map.mp hmem
      exact List.mem_append_left _ (Option.mem_toList.mpr hn)
    | left p cause actions =>
      obtain ⟨event, -, rfl⟩ := List.mem_map.mp hmem
      exact Option.some.inj hn ▸ hentry p (hsince.left p cause actions (List.mem_reverse.mp hr))
    | processed | stopped => exact absurd hmem List.not_mem_nil

/-- A command lets at most its own call wait, and is reported as its own or as what waited for it. -/
theorem Registrar.handle_spec (pj : Pjsip) (env : RegistrarEnv) (w : Registrar) (t : Tagged Command) :
    (w.handle pj env t).1.waiting ⊆ t.call :: w.waiting ∧
      ∀ e ∈ (w.handle pj env t).2, ∀ n, e.1 = some n → n ∈ t.call :: w.waiting := by
  obtain ⟨number, item⟩ := t
  cases item with
  | receive command =>
    have hmoves : Auth.Moves pj w.auth.ledger _ := whenStarted_ledger (receivePacket_moves
      (env.register number) w.auth (ReceiveCommand.origin command) command.data)
    exact Registrar.advance_spec hmoves fun h => absurd h (Option.some_ne_none _)
  | auth command =>
    obtain ⟨hwaiting, hcauses⟩ := Registrar.advance_spec
      (processAuthCommand_moves (env.complete number) w.auth command : Auth.Moves pj _ _)
      fun _ => sweepPending_transactions _ (resolveCompleted pj _ command) (fun _ _ => rfl) _ _ _
    exact ⟨fun n hn => List.mem_cons_of_mem _ (hwaiting hn), fun e he n hn =>
      List.mem_cons_of_mem _ (hcauses e he n hn)⟩
  | completion | close | message | invite | dialog | inviteResponse | subscribe =>
    exact ⟨List.subset_cons_self .., fun _ he => absurd he List.not_mem_nil⟩

/-- The rest of a poll lets no call wait, and reports what waited. -/
theorem Registrar.rest_spec (pj : Pjsip) (env : RegistrarEnv) (w : Registrar) :
    (w.rest pj env).1.waiting ⊆ w.waiting ∧
      ∀ e ∈ (w.rest pj env).2, ∀ n, e.1 = some n → n ∈ w.waiting :=
  Registrar.advance_spec (processAuthTimeouts_moves _ _ _ w.auth : Auth.Moves pj _ _)
    fun _ => sweepPending_transactions _ (resolveTimedOut pj _) (fun _ _ => rfl) _ _ _

/-- **The registrar as handlers.** A REGISTER waits from the time it is handled until it leaves the
queue, and its events are those of its packet. -/
def registrar (pj : Pjsip) (env : RegistrarEnv) (config : Config) : Handlers Registrar Event where
  init := ⟨startRuntime .success (Auth.Sys.init config), fun _ => 0, 0⟩
  handle := Registrar.handle pj env
  rest := Registrar.rest pj env
  release w _ := ({ w with auth := releaseRuntime w.auth }, [])
  waiting := Registrar.waiting
  init_waiting := rfl
  handle_waiting w t := (w.handle_spec pj env t).1
  handle_causes w t := (w.handle_spec pj env t).2
  rest_waiting w := (w.rest_spec pj env).1
  rest_causes w := (w.rest_spec pj env).2

/-! ## A close that overtakes -/

/-- Nothing outside the shim fails, and no lookup times out. -/
def sampleEnv : RegistrarEnv where
  register _ := ⟨10, ⟨true, true, .success, .success, .success, 10⟩, .ok [9] 10⟩
  complete _ _ := ⟨10, true, true, .ok [9] 10⟩
  now _ := 10
  purgeNow _ := 10
  expire _ _ := .ok [9] 10

/-- The application completes the first lookup. -/
def sampleLookup : IoOp :=
  .submit ⟨true, true⟩ (.completeAuthLookup
    ⟨completionSize, abiVersion, 1, some .credential, 0, 0, .bytes [7], .bytes [2], .bytes [5]⟩)

/-- What an event of the registrar is about: the call that caused it and the type of the event, or the
call of a close. -/
def AppEvent.summary : AppEvent Event → Bool × Option ℕ × Option EventType
  | .closed call _ => (true, some call, none)
  | .caused call event => (false, some call, some event.eventType)
  | .other event => (false, none, some event.eventType)

/-- What the application is sent, if all allocations succeed. -/
def sampleEvents (ops : List IoOp) : List (Bool × Option ℕ × Option EventType) :=
  (events samplePjsip (fun _ => ⟨true, true⟩) (registrar samplePjsip sampleEnv sampleConfig) ops).map
    AppEvent.summary

/-- A REGISTER and the close of its association are drained by one poll: the application hears of the
close first. The REGISTER is handled in a poll before the close, and its lookup completed afterwards: the
application hears of the close before it hears what became of the REGISTER. -/
theorem close_overtakes_traffic : sampleEvents [samplePacket, sampleClosed, .poll] =
      [(true, some 1, none), (false, some 0, some .requestReceived),
        (false, some 0, some .authLookupRequired)] ∧
    sampleEvents [samplePacket, .poll, sampleClosed, sampleLookup, .poll] =
      [(false, some 0, some .requestReceived), (false, some 0, some .authLookupRequired),
        (true, some 2, none), (false, some 0, some .responseSent)] := by
  decide

end GmvPjsip.Io
