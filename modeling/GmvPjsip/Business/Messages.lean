import GmvPjsip.Calls.Faults
import GmvPjsip.Lib.Keyed

/-!
# MESSAGE requests

A MESSAGE is sent outside of any dialog. Its operation lives in the pool of the request and is reported
by the callback of the transaction, once.

* `sendMessageOnOwner` executes a command, with every exit; `MessageRuntime.step` is one thing that
  happens.
* `ledger_of_pays`: whatever is paid for by the callbacks, the runtime is a ledger of. So it is one of the
  final responses of an operation, `messages_ledger`, and of its faults, of which there are none,
  `messages_no_faults`.
* `message_settles`: after a failed MESSAGE its operation can only be reported by its own request, and it
  was reported only if PJSIP answered that request before the failing call returned,
  `MessageOp.Answered`. The shim does nothing about the operation of a request that could not be sent.
* `message_step_forget`: what happens does not depend on requests that are not reported.
-/

namespace GmvPjsip.Business

open GmvPjsip.Auth hiding RxData
open GmvPjsip.Calls (CallEvent RxData Transaction eunsuptransport finals firstFailure
  setSubscriptionBody)
open GmvPjsip.Commands
open GmvPjsip.Lib

/-! ## The code -/

/-- A `gmv_outbound_operation_t`. `serial` names its transaction. -/
structure OutboundOperation where
  serial : ℕ
  operationId : ℕ
  finalResponseEmitted : Bool
  deriving DecidableEq, Repr

/-- The operations of the MESSAGE requests that PJSIP still reports, and the events emitted so far. -/
structure MessageRuntime where
  operations : List OutboundOperation
  serials : ℕ
  events : List CallEvent
  deriving DecidableEq, Repr

/-- A runtime without requests. -/
def MessageRuntime.init : MessageRuntime := ⟨[], 0, []⟩

/-- The transaction of a MESSAGE changes its state. -/
structure MessageSignal where
  serial : ℕ
  tx : Transaction
  rdata : Option RxData
  deriving DecidableEq, Repr

/-- Source: `shim.c`, `gmv_outbound_callback` -/
def outboundCallback (tx : Transaction) (rdata : Option RxData) (o : OutboundOperation) :
    OutboundOperation × List CallEvent :=
  if tx.statusCode < 200 ∨ o.finalResponseEmitted then (o, [])
  else ({ o with finalResponseEmitted := true }, [{
    eventType := .outboundResponse
    transport := (rdata.map RxData.transport).getD .unknown
    statusCode := tx.statusCode
    pjStatus := .success
    method := some tx.method
    operationId := o.operationId }])

section code

variable (s : MessageRuntime)

def MessageRuntime.signal (σ : MessageSignal) : MessageRuntime :=
  match s.operations.find? fun o => o.serial = σ.serial with
  | none => s
  | some o =>
    { s with
      operations := s.operations.map fun o' =>
        if o'.serial = o.serial then (outboundCallback σ.tx σ.rdata o').1 else o'
      events := s.events ++ (outboundCallback σ.tx σ.rdata o).2 }

def MessageRuntime.signals (σs : List MessageSignal) : MessageRuntime := σs.foldl .signal s

/-- The transaction of a new request is reported from now on. -/
def MessageRuntime.begin (operationId : ℕ) : MessageRuntime :=
  { s with
    operations := ⟨s.serials, operationId, false⟩ :: s.operations
    serials := s.serials + 1 }

end code

/-- What a MESSAGE meets outside the shim. -/
structure MessageEnv where
  /-- `runtime->started && runtime->endpoint`. -/
  ready : Bool
  /-- `pjsip_endpt_create_request`. -/
  createRequest : PjStatus
  bodyPool : Bool
  /-- `gmv_find_transport` finds one. -/
  transportFound : Bool
  /-- `pjsip_tx_data_set_transport`. -/
  setTransport : PjStatus
  /-- `pjsip_endpt_send_request`, and the signals it gives before it returns. -/
  send : PjStatus
  during : List MessageSignal

/-- The part of `gmv_send_message_on_owner` before the request is sent. -/
def MessageEnv.prepare (env : MessageEnv) (message : MessageCommand) : PjStatus :=
  firstFailure [env.createRequest, setSubscriptionBody env.bodyPool message.contentType message.body,
    if env.transportFound then .success else eunsuptransport, env.setTransport]

/-- The operation lives in the pool of the request. After a failed send the shim leaves it as it is, so
that it is reported if PJSIP still reports the transaction.
Source: `shim_message.inc`, `gmv_send_message_on_owner` -/
def sendMessageOnOwner (s : MessageRuntime) (message : MessageCommand) (env : MessageEnv) :
    PjStatus × MessageRuntime :=
  if message.operationId = 0 ∨ validCseq message.cseq = false ∨ message.targetUri = [] ∨
      message.fromUri = [] ∨ message.contentType = [] ∨ env.ready = false then (.einval, s)
  else if env.prepare message ≠ .success then (env.prepare message, s)
  else (env.send, (s.begin message.operationId).signals env.during)

/-- One thing that happens. -/
inductive MessageOp
  | signal (σ : MessageSignal)
  | message (command : MessageCommand) (env : MessageEnv)

def MessageRuntime.step (s : MessageRuntime) : MessageOp → MessageRuntime
  | .signal σ => s.signal σ
  | .message command env => (sendMessageOnOwner s command env).2

/-- The operation the application gives. -/
def MessageOp.operationIds : MessageOp → List ℕ
  | .message command _ => [command.operationId]
  | .signal _ => []

/-- What the dispatcher gets back from the handler of a command.
Source: `shim_command_dispatch.inc` -/
def MessageOp.status (s : MessageRuntime) : MessageOp → Option PjStatus
  | .message command env => some (sendMessageOnOwner s command env).1
  | .signal _ => none

/-- PJSIP answers the MESSAGE of a command before the call that sends it returns: among the signals it
gives there is a final response to that request. -/
def MessageOp.Answered (s : MessageRuntime) : MessageOp → Prop
  | .message command env =>
    (validCseq command.cseq = true ∧ command.targetUri ≠ [] ∧ command.fromUri ≠ [] ∧
        command.contentType ≠ [] ∧ env.ready = true) ∧
      env.prepare command = .success ∧
      ∃ σ ∈ env.during, σ.serial = s.serials ∧ 200 ≤ σ.tx.statusCode
  | .signal _ => False

/-- PJSIP reports a transaction. -/
def MessageOp.Reports (serial : ℕ) : MessageOp → Prop
  | .signal σ => σ.serial = serial
  | .message _ env => ∃ σ ∈ env.during, σ.serial = serial

/-- The requests with the numbers from `first` on and before `last` are not reported any more. -/
def MessageRuntime.forget (first last : ℕ) (s : MessageRuntime) : MessageRuntime :=
  { s with operations := s.operations.filter fun o => ¬(first ≤ o.serial ∧ o.serial < last) }

/-! ## Signals -/

/-- No two operations share a number. -/
structure MessageRuntime.Sound (s : MessageRuntime) : Prop where
  once : (s.operations.map OutboundOperation.serial).Nodup
  fresh : ∀ o ∈ s.operations, o.serial < s.serials

/-- A callback pays the answers it gives out of what its operation owes. -/
def Pays (answer : CallEvent → Bool) (owes : OutboundOperation → ℕ) : Prop :=
  ∀ (tx : Transaction) (rdata : Option RxData) (o : OutboundOperation),
    (outboundCallback tx rdata o).2.countP answer + owes (outboundCallback tx rdata o).1 ≤ owes o

/-- What the operations owe together. -/
def MessageRuntime.total (owes : OutboundOperation → ℕ) (s : MessageRuntime) : ℕ :=
  (s.operations.map owes).sum

/-- How many final responses an operation can still report. -/
def OutboundOperation.owes (id : ℕ) (o : OutboundOperation) : ℕ :=
  if o.operationId = id ∧ o.finalResponseEmitted = false then 1 else 0

section signals

variable {s : MessageRuntime} {answer : CallEvent → Bool} {owes : OutboundOperation → ℕ}

/-- The callback leaves the number of the request. -/
theorem outboundCallback_serial (tx : Transaction) (rdata : Option RxData) (o : OutboundOperation) :
    (outboundCallback tx rdata o).1.serial = o.serial := by
  unfold outboundCallback
  split_ifs <;> rfl

/-- A final response is paid for: it is reported once. -/
theorem pays_finals (id : ℕ) : Pays (CallEvent.IsFinal id ·) (OutboundOperation.owes id) := by
  intro tx rdata o
  unfold outboundCallback
  by_cases hnone : tx.statusCode < 200 ∨ o.finalResponseEmitted = true
  · rw [if_pos hnone]
    simp
  · rw [if_neg hnone]
    obtain ⟨-, hemitted⟩ := not_or.mp hnone
    by_cases hown : o.operationId = id
    · simp only [OutboundOperation.owes, hown, Bool.not_eq_true _ ▸ hemitted]
      exact List.countP_le_length
    · simp [CallEvent.IsFinal, OutboundOperation.owes, hown]

/-- The callback reports no fault. -/
theorem pays_faults (id : ℕ) : Pays (CallEvent.IsFault id ·) fun _ => 0 := by
  intro tx rdata o
  unfold outboundCallback
  split_ifs <;> simp [CallEvent.IsFault]

/-- A signal is a callback of one operation, if PJSIP still reports it. -/
theorem signal_split (hs : s.Sound) (σ : MessageSignal) :
    s.signal σ = s ∨ ∃ pre o post, s.operations = pre ++ o :: post ∧ o.serial = σ.serial ∧
      s.signal σ = { s with
        operations := pre ++ (outboundCallback σ.tx σ.rdata o).1 :: post
        events := s.events ++ (outboundCallback σ.tx σ.rdata o).2 } := by
  unfold MessageRuntime.signal
  cases hfind : s.operations.find? fun o => o.serial = σ.serial with
  | none => exact Or.inl rfl
  | some o =>
    obtain ⟨pre, post, hsplit⟩ := List.append_of_mem (List.mem_of_find?_eq_some hfind)
    have hmap := Keyed.map_at (hsplit ▸ hs.once) fun o => (outboundCallback σ.tx σ.rdata o).1
    refine Or.inr ⟨pre, o, post, hsplit, by simpa using List.find?_some hfind, ?_⟩
    simp only
    rw [hsplit, hmap]

theorem signal_sound (hs : s.Sound) (σ : MessageSignal) : (s.signal σ).Sound := by
  rcases signal_split hs σ with hsame | ⟨pre, o, post, hsplit, -, heq⟩
  · rw [hsame]
    exact hs
  · have hserial := outboundCallback_serial σ.tx σ.rdata o
    rw [heq]
    refine ⟨?_, fun o' ho' => ?_⟩
    · simpa [hserial, hsplit] using hs.once
    · rcases List.mem_append.mp ho' with hfront | hrest
      · exact hs.fresh o' (by simp [hsplit, hfront])
      · rcases List.mem_cons.mp hrest with rfl | hback
        · rw [hserial]
          exact hs.fresh o (by simp [hsplit])
        · exact hs.fresh o' (by simp [hsplit, hback])

theorem signal_emits (hs : s.Sound) (σ : MessageSignal) : s.events <+: (s.signal σ).events := by
  rcases signal_split hs σ with hsame | ⟨pre, o, post, hsplit, -, heq⟩
  · rw [hsame]
  · rw [heq]
    exact List.prefix_append _ _

theorem signal_pays (h : Pays answer owes) (hs : s.Sound) (σ : MessageSignal) :
    (s.signal σ).events.countP answer + (s.signal σ).total owes ≤
      s.events.countP answer + s.total owes := by
  rcases signal_split hs σ with hsame | ⟨pre, o, post, hsplit, -, heq⟩
  · rw [hsame]
  · have hpays := h σ.tx σ.rdata o
    rw [heq]
    simp only [MessageRuntime.total, hsplit, List.countP_append, List.map_append, List.map_cons,
      List.sum_append, List.sum_cons]
    omega

/-- Signals are a ledger that nothing is asked of. -/
theorem signals_ledger (h : Pays answer owes) :
    Ledger MessageRuntime.Sound MessageRuntime.signal MessageRuntime.events (fun _ => 0)
      (MessageRuntime.total owes) answer where
  keeps := fun σ hs => signal_sound hs σ
  emits := fun σ hs => signal_emits hs σ
  pays := fun σ hs => signal_pays h hs σ

end signals

/-! ## Commands -/

section commands

variable {s : MessageRuntime} {answer : CallEvent → Bool} {owes : OutboundOperation → ℕ} {id : ℕ}

theorem begin_sound (hs : s.Sound) (operationId : ℕ) : (s.begin operationId).Sound := by
  constructor
  · rw [MessageRuntime.begin, List.map_cons, List.nodup_cons]
    refine ⟨fun hmem => ?_, hs.once⟩
    obtain ⟨o, ho, hserial⟩ := List.mem_map.mp hmem
    have hless := hs.fresh o ho
    exact absurd hserial (Nat.ne_of_lt hless)
  · intro o ho
    rcases List.mem_cons.mp ho with rfl | hold
    · exact Nat.lt_succ_self _
    · exact Nat.lt_succ_of_lt (hs.fresh o hold)

/-- The runtime after a request was sent with `env`. -/
def MessageRuntime.sent (s : MessageRuntime) (operationId : ℕ) (env : MessageEnv) : MessageRuntime :=
  (s.begin operationId).signals env.during

/-- A command fails before it sends anything, or it sends. -/
theorem sendMessageOnOwner_cases (s : MessageRuntime) (message : MessageCommand) (env : MessageEnv) :
    (sendMessageOnOwner s message env).2 = s ∨
      sendMessageOnOwner s message env = (env.send, s.sent message.operationId env) ∧
        (validCseq message.cseq = true ∧ message.targetUri ≠ [] ∧ message.fromUri ≠ [] ∧
          message.contentType ≠ [] ∧ env.ready = true) ∧ env.prepare message = .success := by
  unfold sendMessageOnOwner
  by_cases hbad : message.operationId = 0 ∨ validCseq message.cseq = false ∨ message.targetUri = [] ∨
      message.fromUri = [] ∨ message.contentType = [] ∨ env.ready = false
  · rw [if_pos hbad]
    exact Or.inl rfl
  rw [if_neg hbad]
  by_cases hprepare : env.prepare message ≠ .success
  · rw [if_pos hprepare]
    exact Or.inl rfl
  · rw [if_neg hprepare]
    refine Or.inr ⟨rfl, ?_, not_not.mp hprepare⟩
    simpa only [not_or, Bool.not_eq_false] using (not_or.mp hbad).2

theorem sent_sound (hs : s.Sound) (operationId : ℕ) (env : MessageEnv) :
    (s.sent operationId env).Sound :=
  (signals_ledger (pays_faults 0)).run_keeps (begin_sound hs operationId) env.during

theorem sent_emits (hs : s.Sound) (operationId : ℕ) (env : MessageEnv) :
    s.events <+: (s.sent operationId env).events :=
  (signals_ledger (pays_faults 0)).run_emits (begin_sound hs operationId) env.during

/-- A request that is sent raises what is owed by what a new operation owes. -/
theorem sent_pays (h : Pays answer owes) (hs : s.Sound) (operationId : ℕ) (env : MessageEnv) :
    (s.sent operationId env).events.countP answer + (s.sent operationId env).total owes ≤
      s.events.countP answer + s.total owes + owes ⟨s.serials, operationId, false⟩ := by
  have hbegin : (s.begin operationId).total owes =
      owes ⟨s.serials, operationId, false⟩ + s.total owes := rfl
  have hevents : (s.begin operationId).events = s.events := rfl
  have hpays := (signals_ledger h).run_pays (begin_sound hs operationId) env.during
  have hnothing : (env.during.map fun _ => 0).sum = 0 := by simp
  rw [hnothing, hbegin, hevents] at hpays
  unfold MessageRuntime.sent MessageRuntime.signals
  omega

/-- **What the callbacks pay for, the runtime is a ledger of**, if a new operation owes no more than is
asked for. -/
theorem ledger_of_pays (h : Pays answer owes) {asks : MessageOp → ℕ} (hnew : ∀ serial command env,
      owes ⟨serial, command.operationId, false⟩ ≤ asks (.message command env)) :
    Ledger MessageRuntime.Sound MessageRuntime.step MessageRuntime.events asks
      (MessageRuntime.total owes) answer where
  keeps := fun {s} op hs => by
    cases op with
    | signal σ => exact signal_sound hs σ
    | message command env =>
      show (sendMessageOnOwner s command env).2.Sound
      rcases sendMessageOnOwner_cases s command env with hsame | ⟨hsent, -⟩
      · rw [hsame]
        exact hs
      · rw [hsent]
        exact sent_sound hs command.operationId env
  emits := fun {s} op hs => by
    cases op with
    | signal σ => exact signal_emits hs σ
    | message command env =>
      show s.events <+: (sendMessageOnOwner s command env).2.events
      rcases sendMessageOnOwner_cases s command env with hsame | ⟨hsent, -⟩
      · rw [hsame]
      · rw [hsent]
        exact sent_emits hs command.operationId env
  pays := fun {s} op hs => by
    cases op with
    | signal σ => exact (signal_pays h hs σ).trans (Nat.le_add_right _ _)
    | message command env =>
      show (sendMessageOnOwner s command env).2.events.countP answer +
        (sendMessageOnOwner s command env).2.total owes ≤ _
      rcases sendMessageOnOwner_cases s command env with hsame | ⟨hsent, -⟩
      · rw [hsame]
        exact Nat.le_add_right _ _
      · rw [hsent]
        exact (sent_pays h hs command.operationId env).trans
          (Nat.add_le_add_left (hnew s.serials command env) _)

/-- **The MESSAGE requests are a ledger of the final responses of an operation.** -/
theorem messages_ledger (id : ℕ) : Ledger MessageRuntime.Sound MessageRuntime.step MessageRuntime.events
      (fun op => op.operationIds.count id) (MessageRuntime.total (OutboundOperation.owes id))
      (CallEvent.IsFinal id ·) := by
  refine ledger_of_pays (pays_finals id) fun serial command env => ?_
  simp [OutboundOperation.owes, MessageOp.operationIds, List.count_cons]

/-- The MESSAGE requests are a ledger of faults, of which there are none. -/
theorem messages_no_faults (id : ℕ) :
    Ledger MessageRuntime.Sound MessageRuntime.step MessageRuntime.events (fun _ => 0)
      (MessageRuntime.total fun _ => 0) (CallEvent.IsFault id ·) :=
  ledger_of_pays (pays_faults id) fun _ _ _ => le_rfl

/-- What a signal leaves comes from what there was. -/
theorem signal_descends {serial : ℕ} (σ : MessageSignal) (hs : s.Sound) :
    Descends MessageRuntime.operations (OutboundOperation.owes id) (fun o => o.serial = serial) s
      (s.signal σ) := by
  intro o' ho' howes
  rcases signal_split hs σ with hsame | ⟨pre, o, post, hsplit, -, heq⟩
  · exact ⟨o', hsame ▸ ho', howes, fun h => h⟩
  · have hpays := pays_finals id σ.tx σ.rdata o
    rw [heq] at ho'
    rcases List.mem_append.mp ho' with hfront | hrest
    · exact ⟨o', by simp [hsplit, hfront], howes, fun h => h⟩
    · rcases List.mem_cons.mp hrest with rfl | hback
      · exact ⟨o, by simp [hsplit], by omega, (outboundCallback_serial σ.tx σ.rdata o).trans⟩
      · exact ⟨o', by simp [hsplit, hback], howes, fun h => h⟩

/-- A signal that is no final response to the only request that owes one reports none. -/
theorem signal_silent {serial : ℕ} {σ : MessageSignal} (hs : s.Sound)
    (h : Confined MessageRuntime.operations (OutboundOperation.owes id) (fun o => o.serial = serial) s)
    (hquiet : ¬(σ.serial = serial ∧ 200 ≤ σ.tx.statusCode)) :
    (s.signal σ).events.countP (CallEvent.IsFinal id ·) = s.events.countP (CallEvent.IsFinal id ·) := by
  rcases signal_split hs σ with hsame | ⟨pre, o, post, hsplit, hserial, heq⟩
  · rw [hsame]
  · have hnone : (outboundCallback σ.tx σ.rdata o).2.countP (CallEvent.IsFinal id ·) = 0 := by
      by_cases howes : o.owes id = 0
      · have hpays := pays_finals id σ.tx σ.rdata o
        omega
      · have hown := h o (by simp [hsplit]) howes
        have hprogress : σ.tx.statusCode < 200 := by
          by_contra hfinal
          exact hquiet ⟨hserial.symm.trans hown, Nat.not_lt.mp hfinal⟩
        rw [outboundCallback, if_pos (Or.inl hprogress)]
        rfl
    rw [heq]
    show (s.events ++ (outboundCallback σ.tx σ.rdata o).2).countP _ = _
    rw [List.countP_append, hnone, Nat.add_zero]

/-- Signals make no requests. -/
theorem signals_serials (s : MessageRuntime) (σs : List MessageSignal) :
    (s.signals σs).serials = s.serials := by
  induction σs generalizing s with
  | nil => rfl
  | cons σ rest ih =>
    have hone : (s.signal σ).serials = s.serials := by
      unfold MessageRuntime.signal
      split <;> rfl
    exact (ih (s.signal σ)).trans hone

/-- **A failed MESSAGE is settled**, up to its own request: nothing else can report its operation, and no
final response to it was reported unless PJSIP answered the request before the failing call returned. -/
theorem message_settles {command : MessageCommand} (env : MessageEnv) (hs : s.Sound)
    (hfresh : s.total (OutboundOperation.owes command.operationId) = 0) :
    ((sendMessageOnOwner s command env).2.forget s.serials
        (sendMessageOnOwner s command env).2.serials).total
      (OutboundOperation.owes command.operationId) = 0 ∧
    (¬(MessageOp.message command env).Answered s →
      finals command.operationId (sendMessageOnOwner s command env).2.events =
        finals command.operationId s.events) := by
  have hnobody := sum_owes_eq_zero.mp hfresh
  rcases sendMessageOnOwner_cases s command env with hsame | ⟨hsent, hready⟩
  · rw [hsame]
    exact ⟨sum_owes_eq_zero.mpr fun o ho => hnobody o (List.mem_of_mem_filter ho), fun _ => rfl⟩
  · rw [hsent]
    have hbegun : Confined MessageRuntime.operations (OutboundOperation.owes command.operationId)
        (fun o => o.serial = s.serials) (s.begin command.operationId) := by
      intro o ho howes
      rcases List.mem_cons.mp ho with rfl | hold
      · rfl
      · exact absurd (hnobody o hold) howes
    have hlast := hbegun.run (fun σ hs => signal_sound hs σ) (fun σ hs => signal_descends σ hs)
      (begin_sound hs _) env.during
    have hnumbers : (s.sent command.operationId env).serials = s.serials + 1 := signals_serials _ _
    refine ⟨sum_owes_eq_zero.mpr fun o ho => ?_, fun hquiet => ?_⟩
    · obtain ⟨hmem, hkept⟩ := List.mem_filter.mp ho
      rw [decide_eq_true_eq, hnumbers] at hkept
      by_contra howes
      have hown := hlast o hmem howes
      exact hkept (by omega)
    · refine hbegun.run_silent (fun σ hs => signal_sound hs σ) (fun σ hs => signal_descends σ hs)
        (fun hs hconfined hquiet => signal_silent hs hconfined hquiet) (begin_sound hs _) ?_
      exact fun σ hσ hanswer => hquiet ⟨hready.1, hready.2, σ, hσ, hanswer⟩

end commands

/-! ## Requests that are not reported -/

section forget

variable {s : MessageRuntime} {first last : ℕ}

theorem signal_forget {σ : MessageSignal} (hσ : ¬(first ≤ σ.serial ∧ σ.serial < last)) :
    (s.forget first last).signal σ = (s.signal σ).forget first last := by
  have hfind : ((s.forget first last).operations.find? fun o => o.serial = σ.serial) =
      s.operations.find? fun o => o.serial = σ.serial := by
    show (s.operations.filter _).find? _ = _
    rw [List.find?_filter]
    congr 1
    funext o
    by_cases hown : o.serial = σ.serial
    · simp only [hown, hσ, not_false_eq_true, decide_true, and_self]
    · simp [hown]
  unfold MessageRuntime.signal
  rw [hfind]
  cases s.operations.find? fun o => o.serial = σ.serial with
  | none => rfl
  | some o =>
    simp only [MessageRuntime.forget, List.filter_map]
    congr 2
    refine List.filter_congr fun o' _ => ?_
    simp only [Function.comp_apply]
    split_ifs <;> simp [outboundCallback_serial]

theorem signals_forget {σs : List MessageSignal}
    (hσs : ∀ σ ∈ σs, ¬(first ≤ σ.serial ∧ σ.serial < last)) :
    (s.forget first last).signals σs = (s.signals σs).forget first last := by
  induction σs generalizing s with
  | nil => rfl
  | cons σ rest ih =>
    have hone : (s.forget first last).signal σ = (s.signal σ).forget first last :=
      signal_forget (hσs σ (.head _))
    show ((s.forget first last).signal σ).signals rest = ((s.signal σ).signals rest).forget first last
    rw [hone]
    exact ih fun τ hτ => hσs τ (.tail _ hτ)

/-- **What happens does not depend on requests that are not reported.** -/
theorem message_step_forget {op : MessageOp} (hlast : last ≤ s.serials)
    (hop : ∀ n, first ≤ n → n < last → ¬op.Reports n) :
    (s.forget first last).step op = (s.step op).forget first last := by
  cases op with
  | signal σ => exact signal_forget fun h => hop σ.serial h.1 h.2 rfl
  | message command env =>
    have hbegin : (s.forget first last).begin command.operationId =
        (s.begin command.operationId).forget first last := by
      have hnew : ¬(first ≤ s.serials ∧ s.serials < last) := by omega
      simp only [MessageRuntime.begin, MessageRuntime.forget]
      rw [List.filter_cons, if_pos (decide_eq_true hnew)]
    have hsignals := signals_forget (s := s.begin command.operationId) fun σ hσ h =>
      hop σ.serial h.1 h.2 ⟨σ, hσ, rfl⟩
    show (sendMessageOnOwner (s.forget first last) command env).2 =
      (sendMessageOnOwner s command env).2.forget first last
    unfold sendMessageOnOwner
    split_ifs
    · rfl
    · rfl
    · rw [hbegin]
      exact hsignals

theorem forget_sound (hs : s.Sound) (first last : ℕ) : (s.forget first last).Sound :=
  ⟨hs.once.sublist (List.filter_sublist.map _), fun o ho => hs.fresh o (List.mem_of_mem_filter ho)⟩

/-- The status of a command does not depend on requests at all. -/
theorem message_status_forget (s : MessageRuntime) (first last : ℕ) (op : MessageOp) :
    op.status (s.forget first last) = op.status s := by
  cases op with
  | signal => rfl
  | message command env =>
    show some (sendMessageOnOwner (s.forget first last) command env).1 =
      some (sendMessageOnOwner s command env).1
    unfold sendMessageOnOwner
    split_ifs <;> rfl

/-- Numbers are not taken back. -/
theorem message_serials_step (s : MessageRuntime) (op : MessageOp) : s.serials ≤ (s.step op).serials := by
  cases op with
  | signal σ => exact (signals_serials s [σ]).ge
  | message command env =>
    show s.serials ≤ (sendMessageOnOwner s command env).2.serials
    rcases sendMessageOnOwner_cases s command env with hsame | ⟨hsent, -⟩
    · rw [hsame]
    · rw [hsent]
      exact (Nat.le_succ _).trans (signals_serials (s.begin command.operationId) env.during).ge

end forget

end GmvPjsip.Business
