import GmvPjsip.Business.Messages
import GmvPjsip.Subscriptions.Faults

/-!
# The dispatchers of business commands

The owner thread takes the commands of the application off their queues and executes them one by one. A
dispatcher calls the handler of a command and, if it fails, reports a fault with the operation of the
command. The dispatcher of INVITE responses does not, and a response has no operation.

* `BusinessRuntime` puts MESSAGE requests, calls and subscriptions together. They share nothing but the
  events.
* `business_ledger`: a ledger of each of them makes one of the whole.
* `Op.Answered`: PJSIP answers the request of a command before the call that sends it returns. `Forgets`
  is what is assumed of PJSIP: it does not report the transaction of a request it refused to send.
* `failing_command_reported`: a command that fails has one fault and no other last report, unless its
  request was answered. An INVITE response that fails is not reported.
* `failing_commands_misreported`: an INVITE response that fails is not reported at all, and an INVITE
  whose transaction PJSIP ends inside the failing call is reported twice.
-/

namespace GmvPjsip.Business

open GmvPjsip.Auth hiding RxData
open GmvPjsip.Calls (CallEvent CallRuntime finals)
open GmvPjsip.Commands
open GmvPjsip.Lib
open GmvPjsip.Subscriptions (SubscriptionRuntime)

/-! ## The code -/

structure BusinessRuntime where
  messages : MessageRuntime
  calls : CallRuntime
  subscriptions : SubscriptionRuntime
  events : List CallEvent

def BusinessRuntime.init : BusinessRuntime := ⟨.init, .init, .init, []⟩

/-- One thing that happens. -/
inductive Op
  | messages (op : MessageOp)
  | calls (op : Calls.Op)
  | subscriptions (op : Subscriptions.Op)

/-- Source: `shim_command_dispatch.inc`, `gmv_emit_command_fault` -/
def commandFault (operationId : ℕ) (status : PjStatus) : CallEvent where
  eventType := .runtimeFault
  transport := .unknown
  statusCode := 0
  pjStatus := status
  method := none
  operationId := operationId

/-- What a dispatcher reports when the handler has returned. -/
def reportFailure (operationId : ℕ) (status : PjStatus) : List CallEvent :=
  if status ≠ .success then [commandFault operationId status] else []

/-- What the dispatchers report.
Source: `shim_command_dispatch.inc`, `gmv_process_message_commands`, `gmv_process_invite_commands`,
`gmv_process_dialog_commands`, `gmv_process_invite_response_commands`,
`gmv_process_subscribe_commands` -/
def Op.faults (s : BusinessRuntime) : Op → List CallEvent
  | .messages (.message command env) =>
    reportFailure command.operationId (sendMessageOnOwner s.messages command env).1
  | .calls (.invite command env) =>
    reportFailure command.operationId (Calls.sendInviteOnOwner s.calls command env).1
  | .calls (.dialog command env) =>
    reportFailure command.operationId (Calls.sendDialogOnOwner s.calls command env).1
  | .calls (.respond _ _) => []
  | .subscriptions (.subscribe command env) =>
    reportFailure command.operationId (Subscriptions.sendSubscribeOnOwner s.subscriptions command env).1
  | _ => []

/-- What the handlers and callbacks emit in the course of what happens. -/
def Op.news (s : BusinessRuntime) : Op → List CallEvent
  | .messages op => Ledger.news MessageRuntime.step MessageRuntime.events s.messages op
  | .calls op => Ledger.news CallRuntime.step CallRuntime.events s.calls op
  | .subscriptions op =>
    Ledger.news SubscriptionRuntime.step SubscriptionRuntime.events s.subscriptions op

def BusinessRuntime.step (s : BusinessRuntime) (op : Op) : BusinessRuntime :=
  let events := s.events ++ (op.news s ++ op.faults s)
  match op with
  | .messages op => { s with messages := s.messages.step op, events := events }
  | .calls op => { s with calls := s.calls.step op, events := events }
  | .subscriptions op => { s with subscriptions := s.subscriptions.step op, events := events }

def run (ops : List Op) : BusinessRuntime := ops.foldl .step .init

/-! ## Definitions -/

/-- What the dispatcher gets back from the handler of a command. -/
def Op.status (s : BusinessRuntime) : Op → Option PjStatus
  | .messages op => op.status s.messages
  | .calls op => op.status s.calls
  | .subscriptions op => op.status s.subscriptions

/-- The operations the application gives. -/
def Op.operationIds : Op → List ℕ
  | .messages op => op.operationIds
  | .calls op => op.operationIds
  | .subscriptions op => op.operationIds

/-- The last report of the operation `id`: a fault or a final response. -/
def IsTerminal (id : ℕ) (e : CallEvent) : Prop := e.IsFault id ∨ e.IsFinal id

instance (id : ℕ) : DecidablePred (IsTerminal id) := fun _ => inferInstanceAs (Decidable (_ ∨ _))

/-- PJSIP answers the request of a command before the call that sends it returns. -/
def Op.Answered (s : BusinessRuntime) : Op → Prop
  | .messages op => op.Answered s.messages
  | .calls op => op.Answered s.calls
  | .subscriptions op => op.Answered s.subscriptions

/-- PJSIP reports the transaction of a MESSAGE. -/
def Op.ReportsMessage (n : ℕ) : Op → Prop
  | .messages op => op.Reports n
  | _ => False

/-- PJSIP reports the transaction of a request that carries an operation of the module. -/
def Op.ReportsRequest (n : ℕ) : Op → Prop
  | .calls op => ∃ tx rdata, Calls.Signal.operationTsx n tx rdata ∈ op.signals
  | _ => False

/-- **What is assumed of PJSIP**: when `pjsip_endpt_send_request` or `pjsip_dlg_send_request` has failed,
PJSIP does not report the transaction of that request later. The request of `op` is the one with the
number that `op` took. The shim relies on it: the operation of an INFO is freed by then, and that of a
MESSAGE would be reported a second time. -/
def Forgets (s : BusinessRuntime) (op : Op) (after : List Op) : Prop :=
  ∀ later ∈ after,
    (∀ n, s.messages.serials ≤ n → n < (s.step op).messages.serials → ¬later.ReportsMessage n) ∧
    ∀ n, s.calls.serials ≤ n → n < (s.step op).calls.serials → ¬later.ReportsRequest n

structure BusinessRuntime.Sound (s : BusinessRuntime) : Prop where
  messages : s.messages.Sound
  calls : s.calls.book.Sound
  subscriptions : s.subscriptions.Sound

/-! ## The ledger of the whole -/

section ledger

variable {answer : CallEvent → Bool} {messageAsks : MessageOp → ℕ} {callAsks : Calls.Op → ℕ}
  {subscriptionAsks : Subscriptions.Op → ℕ} {messageOwed : MessageRuntime → ℕ}
  {callOwed : CallRuntime → ℕ} {subscriptionOwed : SubscriptionRuntime → ℕ}

/-- **Ledgers of the parts make a ledger of the whole**, if what the dispatchers report is asked for. -/
theorem business_ledger
    (messages : Ledger MessageRuntime.Sound MessageRuntime.step MessageRuntime.events messageAsks
      messageOwed answer)
    (calls : Ledger (fun s : CallRuntime => s.book.Sound) CallRuntime.step CallRuntime.events callAsks
      callOwed answer)
    (subscriptions : Ledger SubscriptionRuntime.Sound SubscriptionRuntime.step
      SubscriptionRuntime.events subscriptionAsks subscriptionOwed answer)
    {asks : Op → ℕ}
    (hmessages : ∀ s op, ((Op.messages op).faults s).countP answer + messageAsks op ≤ asks (.messages op))
    (hcalls : ∀ s op, ((Op.calls op).faults s).countP answer + callAsks op ≤ asks (.calls op))
    (hsubscriptions : ∀ s op, ((Op.subscriptions op).faults s).countP answer + subscriptionAsks op ≤
      asks (.subscriptions op)) :
    Ledger BusinessRuntime.Sound BusinessRuntime.step BusinessRuntime.events asks
      (fun s => messageOwed s.messages + callOwed s.calls + subscriptionOwed s.subscriptions)
      answer where
  keeps := fun {s} op hs => by
    cases op with
    | messages op => exact ⟨messages.keeps op hs.messages, hs.calls, hs.subscriptions⟩
    | calls op => exact ⟨hs.messages, calls.keeps op hs.calls, hs.subscriptions⟩
    | subscriptions op => exact ⟨hs.messages, hs.calls, subscriptions.keeps op hs.subscriptions⟩
  emits := fun {s} op _ => by
    cases op <;> exact List.prefix_append _ _
  pays := fun {s} op hs => by
    cases op with
    | messages op =>
      have hpays := messages.pays op hs.messages
      have hfaults := hmessages s op
      rw [messages.events_step hs.messages op, List.countP_append] at hpays
      simp only [BusinessRuntime.step, Op.news, List.countP_append]
      omega
    | calls op =>
      have hpays := calls.pays op hs.calls
      have hfaults := hcalls s op
      rw [calls.events_step hs.calls op, List.countP_append] at hpays
      simp only [BusinessRuntime.step, Op.news, List.countP_append]
      omega
    | subscriptions op =>
      have hpays := subscriptions.pays op hs.subscriptions
      have hfaults := hsubscriptions s op
      rw [subscriptions.events_step hs.subscriptions op, List.countP_append] at hpays
      simp only [BusinessRuntime.step, Op.news, List.countP_append]
      omega

end ledger

/-! ## Failed commands -/

variable {s : BusinessRuntime} {first last : ℕ} {op : Op}

section failed

variable {id : ℕ}

theorem reportFailure_no_final (operationId : ℕ) (status : PjStatus) :
    (reportFailure operationId status).countP (CallEvent.IsFinal id ·) = 0 := by
  unfold reportFailure
  split_ifs <;> simp [commandFault, CallEvent.IsFinal]

theorem reportFailure_faults (operationId : ℕ) (status : PjStatus) :
    (reportFailure operationId status).countP (CallEvent.IsFault id ·) ≤ [operationId].count id := by
  unfold reportFailure
  split_ifs
  · by_cases hown : operationId = id <;> simp [hown, commandFault, CallEvent.IsFault]
  · exact Nat.zero_le _

theorem faults_no_final (s : BusinessRuntime) (op : Op) :
    (op.faults s).countP (CallEvent.IsFinal id ·) = 0 := by
  cases op with
  | messages op => cases op <;> first | rfl | exact reportFailure_no_final _ _
  | calls op => cases op <;> first | rfl | exact reportFailure_no_final _ _
  | subscriptions op => cases op <;> first | rfl | exact reportFailure_no_final _ _

theorem faults_le (s : BusinessRuntime) (op : Op) :
    (op.faults s).countP (CallEvent.IsFault id ·) ≤ op.operationIds.count id := by
  cases op with
  | messages op => cases op <;> first | exact Nat.zero_le _ | exact reportFailure_faults _ _
  | calls op => cases op <;> first | exact Nat.zero_le _ | exact reportFailure_faults _ _
  | subscriptions op => cases op <;> first | exact Nat.zero_le _ | exact reportFailure_faults _ _

/-- What all parts together still owe an operation. -/
def BusinessRuntime.owed (id : ℕ) (s : BusinessRuntime) : ℕ :=
  s.messages.total (OutboundOperation.owes id) + s.calls.book.owed id + s.subscriptions.owed id

theorem finals_ledger (hid : id ≠ 0) :
    Ledger BusinessRuntime.Sound BusinessRuntime.step BusinessRuntime.events
      (fun op => op.operationIds.count id) (BusinessRuntime.owed id) (CallEvent.IsFinal id ·) := by
  refine business_ledger (messages_ledger id) (Calls.calls_ledger hid)
    (Subscriptions.subscriptions_ledger hid) ?_ ?_ ?_
  all_goals
    intro s op
    rw [faults_no_final, Nat.zero_add]
    exact le_rfl

theorem faults_ledger (hid : id ≠ 0) :
    Ledger BusinessRuntime.Sound BusinessRuntime.step BusinessRuntime.events
      (fun op => op.operationIds.count id)
      (fun s => s.messages.total (fun _ => 0) + 0 + 0) (CallEvent.IsFault id ·) :=
  business_ledger (messages_no_faults id) (Calls.calls_no_faults id)
    (Subscriptions.subscriptions_no_faults hid) (fun s op => faults_le s (.messages op))
    (fun s op => faults_le s (.calls op)) fun s op => faults_le s (.subscriptions op)

theorem run_append (before after : List Op) :
    run (before ++ after) = after.foldl .step (run before) := List.foldl_append

theorem init_sound : BusinessRuntime.init.Sound where
  messages := ⟨List.nodup_nil, fun _ ho => absurd ho List.not_mem_nil⟩
  calls := Calls.runCalls_sound []
  subscriptions := Subscriptions.runSubscriptions_sound []

theorem run_sound (ops : List Op) : (run ops).Sound :=
  (faults_ledger Nat.one_ne_zero).run_keeps init_sound ops

/-- What happens to calls. -/
def Op.ofCalls : Op → Option Calls.Op
  | .calls op => some op
  | _ => none

theorem run_calls (ops : List Op) : (run ops).calls = Calls.runCalls (ops.filterMap Op.ofCalls) := by
  induction ops using List.reverseRecOn with
  | nil => rfl
  | append_singleton ops op ih =>
    rw [run_append, List.filterMap_append]
    cases op with
    | calls op =>
      show (run ops).calls.step op = Calls.runCalls (ops.filterMap Op.ofCalls ++ [op])
      rw [Calls.runCalls_append, ih]
    | messages op | subscriptions op =>
      show (run ops).calls = Calls.runCalls (ops.filterMap Op.ofCalls ++ [])
      rw [List.append_nil, ih]

/-- An operation that was not given yet is not in the books of the calls. -/
theorem run_unseen {ops : List Op} (hid : id ≠ 0) (hops : id ∉ ops.flatMap Op.operationIds) :
    (run ops).calls.book.Unseen id := by
  rw [run_calls]
  refine Calls.runCalls_unseen hid fun hmem => hops ?_
  obtain ⟨op, hop, hown⟩ := List.mem_flatMap.mp hmem
  obtain ⟨op', hop', hcalls⟩ := List.mem_filterMap.mp hop
  cases op' with
  | calls op' =>
    obtain rfl := Option.some.inj hcalls
    exact List.mem_flatMap.mpr ⟨.calls op', hop', hown⟩
  | messages | subscriptions => cases hcalls

/-- The runtime without the requests that `op` made and that are not reported. -/
def BusinessRuntime.forget (first last : ℕ) (s : BusinessRuntime) : BusinessRuntime :=
  { s with messages := s.messages.forget first last }

theorem step_forget (hlast : last ≤ s.messages.serials)
    (hop : ∀ n, first ≤ n → n < last → ¬op.ReportsMessage n) :
    (s.forget first last).step op = (s.step op).forget first last := by
  cases op with
  | messages op =>
    have hstep : (s.messages.forget first last).step op = (s.messages.step op).forget first last :=
      message_step_forget hlast hop
    have hnews : (Op.messages op).news (s.forget first last) = (Op.messages op).news s := by
      show ((s.messages.forget first last).step op).events.drop _ = _
      rw [hstep]
      rfl
    have hfaults : (Op.messages op).faults (s.forget first last) = (Op.messages op).faults s := by
      have hstatus := message_status_forget s.messages first last op
      cases op with
      | signal => rfl
      | message command =>
        exact congrArg (reportFailure command.operationId) (Option.some.inj hstatus)
    simp only [BusinessRuntime.step, hnews, hfaults]
    simp only [BusinessRuntime.forget, hstep]
  | calls op | subscriptions op => cases op <;> rfl

/-- **Whatever happens later does not depend on requests that are not reported.** -/
theorem foldl_forget {ops : List Op} (hlast : last ≤ s.messages.serials)
    (hops : ∀ op ∈ ops, ∀ n, first ≤ n → n < last → ¬op.ReportsMessage n) :
    ops.foldl .step (s.forget first last) = (ops.foldl BusinessRuntime.step s).forget first last := by
  induction ops generalizing s with
  | nil => rfl
  | cons op rest ih =>
    have hmore : s.messages.serials ≤ (s.step op).messages.serials := by
      cases op with
      | messages op => exact message_serials_step s.messages op
      | calls | subscriptions => exact le_rfl
    rw [List.foldl_cons, List.foldl_cons, step_forget hlast (hops op (.head _))]
    exact ih (hlast.trans hmore) fun op hop => hops op (.tail _ hop)

theorem forgotten_sound (hs : s.Sound) : (s.forget first last).Sound :=
  ⟨forget_sound hs.messages first last, hs.calls, hs.subscriptions⟩

/-- **A failed command is settled.** But for its own request nothing can report its operation any more,
and no final response was reported unless PJSIP answered that request before the failing call returned. -/
theorem failed_settles {status : PjStatus} (hs : s.Sound) (hunseen : s.calls.book.Unseen id)
    (hfresh : s.owed id = 0) (hop : op.operationIds = [id])
    (hid : id ≠ 0) (hstatus : op.status s = some status) (hfailed : status ≠ .success) :
    ((s.step op).forget s.messages.serials (s.step op).messages.serials).owed id = 0 ∧
      (¬op.Answered s → finals id (op.news s) = 0) := by
  have hparts : s.messages.total (OutboundOperation.owes id) = 0 ∧ s.calls.book.owed id = 0 ∧
      s.subscriptions.owed id = 0 := by
    unfold BusinessRuntime.owed at hfresh
    omega
  obtain ⟨hmessages, hcalls, hsubscriptions⟩ := hparts
  have hkept : (s.messages.forget s.messages.serials s.messages.serials).total
      (OutboundOperation.owes id) = 0 :=
    sum_owes_eq_zero.mpr fun o ho => sum_owes_eq_zero.mp hmessages o (List.mem_of_mem_filter ho)
  cases op with
  | messages op =>
    cases op with
    | signal => cases hop
    | message command env =>
      obtain rfl := List.singleton_inj.mp hop
      obtain ⟨howed, hsilent⟩ := message_settles env hs.messages hmessages
      refine ⟨?_, fun hquiet => ?_⟩
      · show ((s.messages.step (.message command env)).forget _ _).total _ + s.calls.book.owed _ +
          s.subscriptions.owed _ = 0
        exact Nat.add_eq_zero_iff.mpr ⟨Nat.add_eq_zero_iff.mpr ⟨howed, hcalls⟩, hsubscriptions⟩
      · exact (messages_ledger command.operationId).news_eq_zero hs.messages (hsilent hquiet)
  | calls op =>
    obtain ⟨howed, hsilent⟩ := Calls.failed_settles s.calls hs.calls hop hid hunseen hstatus hfailed
    refine ⟨?_, fun hquiet => (Calls.calls_ledger hid).news_eq_zero hs.calls (hsilent hquiet)⟩
    show (s.messages.forget _ _).total _ + (s.calls.step op).book.owed id + s.subscriptions.owed id = 0
    exact Nat.add_eq_zero_iff.mpr ⟨Nat.add_eq_zero_iff.mpr ⟨hkept, howed⟩, hsubscriptions⟩
  | subscriptions op =>
    cases op with
    | signal | clientRefresh | close => cases hop
    | subscribe command env =>
      obtain rfl := List.singleton_inj.mp hop
      obtain ⟨howed, hsilent⟩ := Subscriptions.subscribe_settles hs.subscriptions hid hsubscriptions
        (Option.some.inj hstatus ▸ hfailed)
      refine ⟨?_, fun hquiet =>
        (Subscriptions.subscriptions_ledger hid).news_eq_zero hs.subscriptions (hsilent hquiet)⟩
      show (s.messages.forget _ _).total _ + s.calls.book.owed _ +
        (s.subscriptions.step (.subscribe command env)).owed _ = 0
      exact Nat.add_eq_zero_iff.mpr ⟨Nat.add_eq_zero_iff.mpr ⟨hkept, hcalls⟩, howed⟩

/-- A failed command that has an operation is reported by its dispatcher. -/
theorem failed_faults {status : PjStatus} (hop : op.operationIds = [id])
    (hstatus : op.status s = some status)
    (hfailed : status ≠ .success) : op.faults s = [commandFault id status] := by
  have hreport : ∀ operationId, [operationId] = [id] → ∀ status', some status' = some status →
      reportFailure operationId status' = [commandFault id status] := by
    intro operationId hown status' heq
    obtain rfl := List.singleton_inj.mp hown
    obtain rfl := Option.some.inj heq
    exact if_pos hfailed
  cases op with
  | messages op =>
    cases op with
    | signal => cases hop
    | message => exact hreport _ hop _ hstatus
  | calls op =>
    cases op with
    | invite => exact hreport _ hop _ hstatus
    | dialog => exact hreport _ hop _ hstatus
    | respond | signal | receive | incoming | close => cases hop
  | subscriptions op =>
    cases op with
    | signal | clientRefresh | close => cases hop
    | subscribe => exact hreport _ hop _ hstatus

theorem terminals_eq (events : List CallEvent) : events.countP (IsTerminal id ·) =
      events.countP (CallEvent.IsFault id ·) + finals id events := by
  induction events with
  | nil => rfl
  | cons e rest ih =>
    simp only [finals, List.countP_cons, decide_eq_true_eq] at ih ⊢
    by_cases hfault : e.IsFault id
    · have hfinal : ¬e.IsFinal id := fun h => by
        have htype := hfault.1.symm.trans h.1
        cases htype
      rw [if_pos (show IsTerminal id e from Or.inl hfault), if_pos hfault, if_neg hfinal]
      omega
    · by_cases hfinal : e.IsFinal id
      · rw [if_pos (show IsTerminal id e from Or.inr hfinal), if_neg hfault, if_pos hfinal]
        omega
      · rw [if_neg (show ¬IsTerminal id e from fun h => h.elim hfault hfinal), if_neg hfault,
          if_neg hfinal]
        omega

/-- A command without an operation reports no fault, whether it fails or not. -/
theorem no_operation_no_fault (hs : s.Sound) (hop : op.operationIds = [])
    (hcalls : op.ofCalls.isSome) :
    op.faults s = [] ∧ ∀ e ∈ op.news s, e.eventType ≠ .runtimeFault := by
  cases op with
  | messages | subscriptions => cases hcalls
  | calls op =>
    have hnone : (Op.calls op).faults s = [] := by
      cases op with
      | invite | dialog => cases hop
      | respond | signal | receive | incoming | close => rfl
    refine ⟨hnone, fun e he hfault => ?_⟩
    have hpays := (Calls.calls_no_faults e.operationId).pays op hs.calls
    have hevents : (s.calls.step op).events =
        s.calls.events ++ Ledger.news CallRuntime.step CallRuntime.events s.calls op :=
      (Calls.calls_no_faults e.operationId).events_step hs.calls op
    have hone : 0 < (Ledger.news CallRuntime.step CallRuntime.events s.calls op).countP
        (CallEvent.IsFault e.operationId ·) :=
      List.countP_pos_iff.mpr ⟨e, he, decide_eq_true ⟨hfault, rfl⟩⟩
    rw [hevents, List.countP_append] at hpays
    omega

/-- **A failed command is reported by one fault, and by nothing else unless PJSIP answered its request
before the failing call returned.** In a run whose operations differ, and with a PJSIP that does not
report the transactions of requests it refused to send, the operation of a failed command has one fault;
its final responses are those reported from inside the handler, and there are none unless the request was
answered there. An INVITE response has no operation, and its failure is not reported. -/
theorem failing_command_reported (before after : List Op) (op : Op) (status : PjStatus)
    (hdistinct : ((before ++ op :: after).flatMap Op.operationIds).Nodup)
    (hforgets : Forgets (run before) op after) (hstatus : op.status (run before) = some status)
    (hfailed : status ≠ .success) :
    (∀ id, op.operationIds = [id] → id ≠ 0 →
      (run (before ++ op :: after)).events.countP (CallEvent.IsFault id ·) = 1 ∧
      finals id (run (before ++ op :: after)).events = finals id (op.news (run before)) ∧
      (¬op.Answered (run before) → (run (before ++ op :: after)).events.countP (IsTerminal id ·) = 1)) ∧
    (op.operationIds = [] →
      op.faults (run before) = [] ∧ ∀ e ∈ op.news (run before), e.eventType ≠ .runtimeFault) := by
  have hs := run_sound before
  refine ⟨fun id hop hid => ?_, fun hop => no_operation_no_fault hs hop ?_⟩
  · have hcount := List.nodup_iff_count_le_one.mp hdistinct id
    rw [List.flatMap_append, List.flatMap_cons, List.count_append, List.count_append, hop,
      List.count_singleton_self] at hcount
    have hbefore : (before.map fun op => op.operationIds.count id).sum = 0 := by
      rw [← Function.comp_def, ← List.count_flatMap]
      omega
    have hafter : (after.map fun op => op.operationIds.count id).sum = 0 := by
      rw [← Function.comp_def, ← List.count_flatMap]
      omega
    have hfinals := finals_ledger hid
    -- nothing of the operation is reported or owed before the command
    obtain ⟨hquiet, hfresh⟩ := hfinals.run_settled init_sound rfl hbefore
    have hunseen : (run before).calls.book.Unseen id :=
      run_unseen hid fun hmem => by
        have hpositive := List.count_pos_iff.mpr hmem
        omega
    obtain ⟨howed, hsilent⟩ := failed_settles hs hunseen hfresh hop hid hstatus hfailed
    have hrun : run (before ++ op :: after) = after.foldl .step ((run before).step op) :=
      run_append before (op :: after)
    have hstep : ((run before).step op).events =
        (run before).events ++ (op.news (run before) ++ [commandFault id status]) := by
      rw [← failed_faults hop hstatus hfailed]
      cases op <;> rfl
    -- nothing is owed after it but by its own request, which is not reported
    have hlast : finals id (run (before ++ op :: after)).events =
        finals id ((run before).step op).events := by
      have hforget := foldl_forget le_rfl fun later hlater => (hforgets later hlater).1
      have hsettled := hfinals.run_settled (forgotten_sound (hfinals.keeps op hs)) howed hafter
      rw [hforget] at hsettled
      rw [hrun]
      exact hsettled.1
    have hfinal : finals id (run (before ++ op :: after)).events =
        finals id (op.news (run before)) := by
      have hreport : [commandFault id status].countP (CallEvent.IsFinal id ·) = 0 := by
        simp [commandFault, CallEvent.IsFinal]
      have hnone : (run before).events.countP (CallEvent.IsFinal id ·) = 0 := hquiet
      refine hlast.trans ?_
      unfold finals
      rw [hstep, List.countP_append, List.countP_append, hnone, hreport, Nat.zero_add, Nat.add_zero]
    have hfault : (run (before ++ op :: after)).events.countP (CallEvent.IsFault id ·) = 1 := by
      have hreport : [commandFault id status].countP (CallEvent.IsFault id ·) = 1 := by
        simp [commandFault, CallEvent.IsFault]
      have hpays := (faults_ledger hid).run_pays init_sound (before ++ op :: after)
      have hemits := ((faults_ledger hid).run_emits ((faults_ledger hid).keeps op hs)
        after).sublist.countP_le (p := (CallEvent.IsFault id ·))
      rw [← hrun, hstep, List.countP_append, List.countP_append, hreport] at hemits
      rw [List.map_append, List.map_cons, List.sum_append, List.sum_cons, hbefore, hafter, hop,
        List.count_singleton_self] at hpays
      change (run (before ++ op :: after)).events.countP _ + _ ≤ 0 + 0 + (0 + (1 + 0)) at hpays
      omega
    refine ⟨hfault, hfinal, fun hanswered => ?_⟩
    rw [terminals_eq, hfault, hfinal, hsilent hanswered]
  · -- only the handlers of calls take a command without an operation
    cases op with
    | calls => rfl
    | messages op =>
      cases op with
      | message => cases hop
      | signal => cases hstatus
    | subscriptions op =>
      cases op with
      | subscribe => cases hop
      | signal | clientRefresh | close => cases hstatus

end failed

/-! ## What goes wrong -/

/-- An INVITE that PJSIP does not send; `during` is what it reports before it returns. -/
def unsentInvite (during : List Calls.Signal) : Op :=
  .calls (.invite (Calls.plainInvite 1 [97])
    { Calls.plainInviteEnv 1 with send := ⟨.other 70001, during⟩ })

theorem failing_command_reported_unsent : (unsentInvite []).status (run []) = some (.other 70001) ∧
      (run [unsentInvite []]).events.countP (IsTerminal 1 ·) = 1 := by
  have hstatus : (unsentInvite []).status (run []) = some (.other 70001) := by decide
  have hquiet : ¬(unsentInvite []).Answered (run []) := by
    rintro ⟨-, -, σ, hσ, -⟩
    exact absurd hσ List.not_mem_nil
  have hforgets : Forgets (run []) (unsentInvite []) [] := fun _ hlater =>
    absurd hlater List.not_mem_nil
  exact ⟨hstatus, ((failing_command_reported [] [] (unsentInvite []) (.other 70001) (by decide) hforgets
    hstatus (by decide)).1 1 rfl (by decide)).2.2 hquiet⟩

/-- The answer to an INVITE of a call that is not there. -/
def strayResponse : Op :=
  .calls (.respond ⟨486, [97], [], [], []⟩ ⟨true, true, .success, .success, ⟨.success, []⟩⟩)

/-- An INVITE response that fails is not reported. An INVITE whose transaction ends with 503 inside the
failing call is reported twice. -/
theorem failing_commands_misreported :
    (strayResponse.status (run []) = some .enotfound ∧ (run [strayResponse]).events = []) ∧
    ((unsentInvite [.inviteTsx 0 ⟨.uac, .invite, 503, .terminated⟩ none]).status (run []) =
        some (.other 70001) ∧
      (run [unsentInvite [.inviteTsx 0 ⟨.uac, .invite, 503, .terminated⟩ none]]).events.countP
        (IsTerminal 1 ·) = 2) := by
  decide

end GmvPjsip.Business
