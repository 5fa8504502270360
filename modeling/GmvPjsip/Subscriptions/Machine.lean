import GmvPjsip.Calls.Requests

/-!
# Subscriptions

A subscription has a record in the runtime's list `subscriptions`. The application starts it and
refreshes or ends it with SUBSCRIBE commands; PJSIP asks for a refresh of its own before it expires. The
record has room for the id of one operation, which is the one that transaction events are reported to.

* `onState`, `onTsxState`, `onRxNotify` and `onClientRefresh` are the callbacks; `sendSubscribeOnOwner`
  executes a command, with every exit.
* `Signal` is one thing PJSIP does and names the request it is about; `Op` is one thing that happens,
  `SubscriptionRuntime.step` its effect and `runSubscriptions` what a run makes of a runtime without
  subscriptions.
* `started` and `reports` are written and never read: which operation started which request, and which
  request an event was about.
-/

namespace GmvPjsip.Subscriptions

open GmvPjsip.Auth hiding RxData
open GmvPjsip.Commands
open GmvPjsip.Calls (CallEvent RxData Transaction eunsuptransport firstFailure setSubscriptionBody
  transactionEvent)

/-! ## Data -/

/-- `pjsip_evsub_state`. -/
inductive EvsubState
  | null
  | sent
  | accepted
  | pending
  | active
  | terminated
  | unknown
  deriving DecidableEq, Repr

/-- A `gmv_subscription_call_t`. `serial` says which record of the run it is, and names its
subscription too. `subscription` is the state of the subscription while the record has one, and `told`
whether `on_evsub_state` was called in that state. A record that was taken out of the list is only
freed once no handler holds it, and nothing reads it any more, so that a record is its number. -/
structure SubscriptionCall where
  serial : ℕ
  operationId : ℕ
  transport : SipTransport
  associationId : ℕ
  expires : ℕ
  callId : Bytes
  event : Bytes
  contentType : Bytes
  body : Bytes
  subscription : Option EvsubState
  told : Bool
  deriving DecidableEq, Repr

/-- A SUBSCRIBE request that was sent: for which subscription, its number, and the operation it was sent
for, or 0 for a refresh of PJSIP's own. -/
structure Start where
  subscription : ℕ
  request : ℕ
  operationId : ℕ
  deriving DecidableEq, Repr

/-- The part of a `gmv_sip_runtime` that subscriptions use. -/
structure SubscriptionRuntime where
  subscriptions : List SubscriptionCall
  serials : ℕ
  requests : ℕ
  events : List CallEvent
  started : List Start
  reports : List (ℕ × CallEvent)
  removed : List SubscriptionCall
  deriving DecidableEq, Repr

/-- A runtime without subscriptions. -/
def SubscriptionRuntime.init : SubscriptionRuntime := ⟨[], 0, 0, [], [], [], []⟩

/-- The method SUBSCRIBE. -/
def subscribeMethod : SipMethod := .other (ascii "SUBSCRIBE")

/-- A SUBSCRIBE that the shim sent. -/
def IsSubscribe (tx : Transaction) : Prop := tx.role = .uac ∧ tx.method = subscribeMethod

instance : DecidablePred IsSubscribe := fun _ => inferInstanceAs (Decidable (_ ∧ _))

/-! ## Callbacks -/

/-- What a callback does to the record of its subscription. -/
structure Reaction where
  call : SubscriptionCall
  events : List CallEvent
  dropped : Bool
  deriving DecidableEq, Repr

/-- Source: `shim.c`, `gmv_subscription_on_state` -/
def onState (r : SubscriptionCall) : Reaction :=
  if r.subscription ≠ some .terminated ∨ r.operationId ≠ 0 then ⟨{ r with told := true }, [], false⟩
  else ⟨{ r with told := true, subscription := none }, [], true⟩

/-- Source: `shim.c`, `gmv_subscription_on_tsx_state` -/
def onTsxState (tx : Transaction) (rdata : Option RxData) (r : SubscriptionCall) : Reaction :=
  if ¬IsSubscribe tx ∨ r.operationId = 0 then ⟨r, [], false⟩
  else
    let events := transactionEvent tx rdata r.operationId
    if 200 ≤ tx.statusCode then
      let r := { r with operationId := 0 }
      if r.subscription = some .terminated then ⟨{ r with subscription := none }, events, true⟩
      else ⟨r, events, false⟩
    else ⟨r, events, false⟩

/-- A NOTIFY is handed on.
Source: `shim.c`, `gmv_subscription_on_rx_notify` -/
def onRxNotify (rdata : Option RxData) (r : SubscriptionCall) : Reaction :=
  match rdata with
  | none => ⟨r, [], false⟩
  | some rx =>
    ⟨r, [⟨.requestReceived, rx.transport, 0, .success, some (.other (ascii "NOTIFY")), 0⟩], false⟩

/-- What a transaction event can do to a record. -/
inductive TsxReaction (tx : Transaction) (rdata : Option RxData) (r : SubscriptionCall) :
    Reaction → Prop
  | ignored (hother : ¬IsSubscribe tx ∨ r.operationId = 0) : TsxReaction tx rdata r ⟨r, [], false⟩
  | progress (hkind : IsSubscribe tx) (hbusy : r.operationId ≠ 0) (hprogress : tx.statusCode < 200) :
      TsxReaction tx rdata r ⟨r, transactionEvent tx rdata r.operationId, false⟩
  | answered (hkind : IsSubscribe tx) (hbusy : r.operationId ≠ 0) (hfinal : 200 ≤ tx.statusCode)
      (hlive : r.subscription ≠ some .terminated) :
      TsxReaction tx rdata r
        ⟨{ r with operationId := 0 }, transactionEvent tx rdata r.operationId, false⟩
  | answeredLast (hkind : IsSubscribe tx) (hbusy : r.operationId ≠ 0) (hfinal : 200 ≤ tx.statusCode)
      (hover : r.subscription = some .terminated) :
      TsxReaction tx rdata r ⟨{ r with operationId := 0, subscription := none },
        transactionEvent tx rdata r.operationId, true⟩

/-- The transaction callback does one of these. -/
theorem onTsxState_spec (tx : Transaction) (rdata : Option RxData) (r : SubscriptionCall) :
    TsxReaction tx rdata r (onTsxState tx rdata r) := by
  unfold onTsxState
  by_cases hother : ¬IsSubscribe tx ∨ r.operationId = 0
  · rw [if_pos hother]
    exact .ignored hother
  rw [if_neg hother]
  obtain ⟨hkind, hbusy⟩ := not_or.mp hother
  by_cases hfinal : 200 ≤ tx.statusCode
  · simp only [if_pos hfinal]
    by_cases hover : r.subscription = some .terminated
    · rw [if_pos hover]
      exact .answeredLast (not_not.mp hkind) hbusy hfinal hover
    · rw [if_neg hover]
      exact .answered (not_not.mp hkind) hbusy hfinal hover
  · simp only [if_neg hfinal]
    exact .progress (not_not.mp hkind) hbusy (Nat.not_le.mp hfinal)

section code

variable (s : SubscriptionRuntime)

/-- Write to a record of the list. -/
def SubscriptionRuntime.write (serial : ℕ) (f : SubscriptionCall → SubscriptionCall) :
    SubscriptionRuntime :=
  { s with subscriptions := s.subscriptions.map fun r => if r.serial = serial then f r else r }

/-- Source: `shim.c`, `gmv_remove_subscription` -/
def SubscriptionRuntime.removeSubscription (serial : ℕ) : SubscriptionRuntime :=
  { s with
    subscriptions := s.subscriptions.filter fun r => r.serial ≠ serial
    removed := s.removed ++ s.subscriptions.filter fun r => r.serial = serial }

/-- The record of a subscription. A record that was taken out of the list has lost its subscription.
Source: `shim.c`, `gmv_subscription_from_evsub` -/
def SubscriptionRuntime.subscriptionFromEvsub (subscription : ℕ) : Option SubscriptionCall :=
  s.subscriptions.find? fun r => r.serial = subscription && r.subscription.isSome

/-- The first record with a Call-ID.
Source: `shim_subscription.inc`, `gmv_find_subscription` -/
def SubscriptionRuntime.findSubscription (callId : Bytes) : Option SubscriptionCall :=
  if callId = [] then none else s.subscriptions.find? fun r => r.callId = callId

def SubscriptionRuntime.emit (events : List CallEvent) : SubscriptionRuntime :=
  { s with events := s.events ++ events }

/-- The record of a subscription reacts; a subscription without one is not looked at. `requests` are
those the events are about. -/
def SubscriptionRuntime.react (subscription : ℕ) (request : Option ℕ)
    (f : SubscriptionCall → Reaction) : SubscriptionRuntime :=
  match s.subscriptionFromEvsub subscription with
  | none => s
  | some call =>
    let s' := { (s.write subscription fun r => (f r).call).emit (f call).events with
      reports := s.reports ++ request.toList.flatMap fun n => (f call).events.map fun e => (n, e) }
    if (f call).dropped then s'.removeSubscription subscription else s'

end code

/-- One thing PJSIP does. -/
inductive Signal
  /-- A subscription enters a state. -/
  | enters (subscription : ℕ) (state : EvsubState)
  /-- `on_evsub_state` is called. -/
  | stateChanged (subscription : ℕ)
  /-- `on_tsx_state` is called for the transaction of a request. -/
  | tsx (subscription : ℕ) (request : ℕ) (tx : Transaction) (rdata : Option RxData)
  /-- `on_rx_notify` is called. -/
  | notify (subscription : ℕ) (rdata : Option RxData)
  deriving DecidableEq, Repr

/-- What a signal does. -/
def SubscriptionRuntime.signal (s : SubscriptionRuntime) : Signal → SubscriptionRuntime
  | .enters subscription state =>
    s.react subscription none fun r => ⟨{ r with subscription := some state, told := false }, [], false⟩
  | .stateChanged subscription => s.react subscription none onState
  | .tsx subscription request tx rdata => s.react subscription (some request) (onTsxState tx rdata)
  | .notify subscription rdata => s.react subscription none (onRxNotify rdata)

/-- What signals do, one after the other. -/
def SubscriptionRuntime.signals (s : SubscriptionRuntime) (σs : List Signal) : SubscriptionRuntime :=
  σs.foldl .signal s

/-! ## Requests -/

/-- What sending a SUBSCRIBE meets outside the shim. -/
structure StartEnv where
  /-- `pjsip_evsub_initiate`. -/
  initiate : PjStatus
  bodyPool : Bool
  /-- `pjsip_evsub_send_request`. -/
  status : PjStatus
  /-- The signals PJSIP gives before it returns. -/
  during : List Signal

/-- What comes before the request is sent. -/
def StartEnv.prepare (env : StartEnv) (r : SubscriptionCall) : PjStatus :=
  firstFailure [env.initiate, setSubscriptionBody env.bodyPool r.contentType r.body]

/-- The next request is that of a record. -/
def SubscriptionRuntime.start (s : SubscriptionRuntime) (r : SubscriptionCall) : SubscriptionRuntime :=
  { s with
    requests := s.requests + 1
    started := s.started ++ [⟨r.serial, s.requests, r.operationId⟩] }

/-- Source: `shim.c`, `gmv_start_subscription_request` -/
def startSubscriptionRequest (s : SubscriptionRuntime) (r : SubscriptionCall) (env : StartEnv) :
    PjStatus × SubscriptionRuntime :=
  if env.prepare r = .success then (env.status, (s.start r).signals env.during)
  else (env.prepare r, s)

/-- What a SUBSCRIBE command meets outside the shim. `callId` is the Call-ID PJSIP makes up for a new
dialog. -/
structure SubscribeEnv where
  /-- `runtime->started && runtime->endpoint`. -/
  ready : Bool
  bodyMalloc : Bool
  /-- `gmv_find_transport` finds one. -/
  transportFound : Bool
  /-- `pjsip_dlg_create_uac`. -/
  createUac : PjStatus
  /-- `pjsip_evsub_create_uac`. -/
  createSubscription : PjStatus
  /-- `pjsip_dlg_set_transport`. -/
  setTransport : PjStatus
  callCalloc : Bool
  callId : Bytes
  start : StartEnv

/-- Source: `shim_subscription.inc`, `gmv_replace_subscription_body` -/
def replaceSubscriptionBody (malloc : Bool) (r : SubscriptionCall) (command : SubscribeCommand) :
    Except PjStatus SubscriptionCall :=
  if command.body ≠ [] ∧ malloc = false then .error .enomem
  else .ok { r with
    body := command.body, contentType := command.contentType, expires := command.expires }

/-- The part of `gmv_send_subscribe_on_owner` that takes an existing record: the record as it is to be,
or the status it returns. -/
def prepareRefresh (s : SubscriptionRuntime) (command : SubscribeCommand) (env : SubscribeEnv) :
    Except PjStatus SubscriptionCall :=
  match s.findSubscription command.callId with
  | none => .error .enotfound
  | some call =>
    if call.subscription = none then .error .enotfound
    else if call.operationId ≠ 0 ∨ call.event ≠ command.event then .error .ebusy
    else (replaceSubscriptionBody env.bodyMalloc call command).map fun r =>
      { r with operationId := command.operationId }

/-- The part of `gmv_send_subscribe_on_owner` that makes a subscription: its record, or the status it
returns. -/
def prepareSubscribe (s : SubscriptionRuntime) (command : SubscribeCommand) (env : SubscribeEnv) :
    Except PjStatus SubscriptionCall :=
  if command.targetUri = [] ∨ command.fromUri = [] ∨ command.contactUri = [] ∨
      validCseq command.localCseq = false ∨ command.expires = 0 then .error .einval
  else if env.transportFound = false then .error eunsuptransport
  else
    let status := firstFailure [env.createUac, env.createSubscription, env.setTransport]
    if status ≠ .success then .error status
    else if env.callCalloc = false then .error .enomem
    else match copyView callIdCapacity (.bytes env.callId),
        copyView contentTypeCapacity (.bytes command.event) with
      | some callId, some event =>
        replaceSubscriptionBody env.bodyMalloc {
          serial := s.serials
          operationId := command.operationId
          transport := command.transport
          associationId := command.associationId
          expires := 0
          callId := callId
          event := event
          contentType := []
          body := []
          subscription := some .null
          told := false } command
      | _, _ => .error .etoosmall

/-- Put a new record at the head of the list. -/
def SubscriptionRuntime.push (s : SubscriptionRuntime) (call : SubscriptionCall) :
    SubscriptionRuntime :=
  { s with subscriptions := call :: s.subscriptions, serials := s.serials + 1 }

/-- The subscription of a record is given up and the record is taken out of the list. -/
def SubscriptionRuntime.dropSubscription (s : SubscriptionRuntime) (serial : ℕ) :
    SubscriptionRuntime :=
  (s.write serial fun r => { r with subscription := none }).removeSubscription serial

/-- A record that was taken out of the list meanwhile is left alone.
Source: `shim_subscription.inc`, `gmv_send_subscribe_on_owner` -/
def sendSubscribeOnOwner (s : SubscriptionRuntime) (command : SubscribeCommand) (env : SubscribeEnv) :
    PjStatus × SubscriptionRuntime :=
  if command.operationId = 0 ∨ command.event = [] ∨ env.ready = false then (.einval, s)
  else if command.callId ≠ [] then
    match prepareRefresh s command env with
    | .error status => (status, s)
    | .ok r =>
      let (status, s) := startSubscriptionRequest (s.write r.serial fun _ => r) r env.start
      (status, if status ≠ .success then s.write r.serial fun r => { r with operationId := 0 } else s)
  else
    match prepareSubscribe s command env with
    | .error status => (status, s)
    | .ok r =>
      let (status, s) := startSubscriptionRequest (s.push r) r env.start
      (status, if status ≠ .success then s.dropSubscription r.serial else s)

/-- PJSIP asks for a refresh. While an operation is under way there is none.
Source: `shim.c`, `gmv_subscription_on_client_refresh` -/
def onClientRefresh (s : SubscriptionRuntime) (subscription : ℕ) (env : StartEnv) :
    SubscriptionRuntime :=
  match s.subscriptionFromEvsub subscription with
  | none => s
  | some call =>
    if call.operationId ≠ 0 then s
    else
      let (status, s) := startSubscriptionRequest s call env
      if status ≠ .success then s.emit [⟨.runtimeFault, call.transport, 0, status, none, 0⟩] else s

/-- Source: `shim.c`, `gmv_close_association_calls` -/
def SubscriptionRuntime.closeAssociationCalls (s : SubscriptionRuntime) (transport : SipTransport)
    (associationId : ℕ) : SubscriptionRuntime :=
  (s.subscriptions.filter fun r => r.transport = transport ∧ r.associationId = associationId).foldl
    (fun s r => s.dropSubscription r.serial) s

/-- What a close meets: whether `gmv_find_transport` finds a TCP transport, and the signals PJSIP gives
while the pending sends of the transport fail. -/
structure CloseEnv where
  transportFound : Bool
  during : List Signal

/-- Source: `shim.c`, `gmv_process_close_commands` -/
def processCloseCommand (s : SubscriptionRuntime) (command : CloseCommand) (env : CloseEnv) :
    SubscriptionRuntime :=
  if env.transportFound then
    (s.signals env.during).closeAssociationCalls command.transport command.associationId
  else s

/-! ## Runs -/

/-- One thing that happens. -/
inductive Op
  /-- PJSIP gives a signal. -/
  | signal (σ : Signal)
  | subscribe (command : SubscribeCommand) (env : SubscribeEnv)
  /-- PJSIP calls `on_client_refresh`. -/
  | clientRefresh (subscription : ℕ) (env : StartEnv)
  | close (command : CloseCommand) (env : CloseEnv)

def SubscriptionRuntime.step (s : SubscriptionRuntime) : Op → SubscriptionRuntime
  | .signal σ => s.signal σ
  | .subscribe command env => (sendSubscribeOnOwner s command env).2
  | .clientRefresh subscription env => onClientRefresh s subscription env
  | .close command env => processCloseCommand s command env

/-- What a run makes of a runtime without subscriptions. -/
def runSubscriptions (ops : List Op) : SubscriptionRuntime := ops.foldl .step .init

end GmvPjsip.Subscriptions
