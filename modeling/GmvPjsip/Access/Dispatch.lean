import GmvPjsip.Access.Duplicates
import GmvPjsip.Access.Grants
import GmvPjsip.Access.Permits
import GmvPjsip.Auth.Server

/-!
# The dispatcher of requests

`gmv_on_rx_request` is called for every request that PJSIP does not match to a dialog. It checks
where the request comes from, reports it and answers it.

* `RxRuntime` is the part of a runtime it uses, `onRxRequest` the dispatcher itself, with the
  branches of all seven methods.
* `onRxRequest_register`: a REGISTER is handled as in `Auth`.
* `InForce` is a grant that is in force for a request. `requests_reported_under_grant`: an OPTIONS or
  MESSAGE request is reported only under such a grant and an INVITE never; ACK, BYE and CANCEL are
  reported whatever was granted. `bye_reported_without_grant` is an instance.
-/

namespace GmvPjsip.Access

open GmvPjsip.Auth GmvPjsip.Lib

/-! ## State -/

/-- The part of a `gmv_invite_call_t` that an incoming INVITE sets. -/
structure InviteCall where
  callId : Bytes
  transport : SipTransport
  associationId : ℕ
  inviteFinalEmitted : Bool
  deriving DecidableEq, Repr

/-- The part of a `gmv_sip_runtime` that the dispatcher uses. -/
structure RxRuntime where
  auth : Runtime
  incomingInviteAllows : List InviteAllow
  recentRequests : RecentRequests
  inviteCalls : List InviteCall
  deriving DecidableEq, Repr

/-- Something the dispatcher does that is seen outside the runtime. -/
inductive RequestAction
  /-- A response of `gmv_send_response` or an event. The method of an event is that of the request. -/
  | shim (action : Action)
  /-- `pjsip_dlg_respond`. -/
  | dialogRespond (code : ℕ)
  /-- `pjsip_inv_send_msg` of a 100. -/
  | trying
  /-- `pjsip_inv_terminate`. -/
  | inviteTerminate (code : ℕ)
  deriving DecidableEq, Repr

/-- What PJSIP and the allocator do with an INVITE. -/
structure InviteEnv where
  /-- `pjsip_dlg_create_uas_and_inc_lock`. -/
  createDialog : PjStatus
  /-- `pjsip_inv_create_uas`. -/
  createSession : PjStatus
  /-- `pjsip_dlg_set_transport`. -/
  setTransport : PjStatus
  /-- `pjsip_inv_initial_answer`. -/
  initialAnswer : PjStatus
  /-- `pjsip_inv_send_msg`. -/
  sendMsg : PjStatus
  callCalloc : Bool
  deriving DecidableEq, Repr

/-- What the dispatcher meets outside the shim. -/
structure RequestEnv where
  /-- `gmv_monotonic_ms` when the source is checked. -/
  sourceNow : ℕ
  /-- `gmv_now_ms` when a permit is used up. -/
  inviteNow : ℕ
  /-- `gmv_now_ms` when the cache is looked up. -/
  recentNow : ℕ
  recentCalloc : Bool
  invite : InviteEnv
  register : RegisterEnv
  send : SendEnv
  deriving DecidableEq, Repr

/-- What the dispatcher returns: whether the request was handled, and the REGISTER it queued. -/
structure RxResult where
  handled : Bool
  runtime : RxRuntime
  queued : Option PendingAuth
  actions : List RequestAction
  deriving DecidableEq, Repr

def RxRuntime.setLastStatus (rt : RxRuntime) (status : PjStatus) : RxRuntime :=
  { rt with auth := { rt.auth with lastStatus := status } }

/-! ## Methods -/

/-- The methods that are handled. -/
inductive RequestKind
  | register
  | options
  | message
  | invite
  | ack
  | bye
  | cancel
  deriving DecidableEq, Repr

/-- The kind of a request; `none` for a method that is left to others. -/
def requestKind : SipMethod → Option RequestKind
  | .register => some .register
  | .options => some .options
  | .invite => some .invite
  | .ack => some .ack
  | .bye => some .bye
  | .cancel => some .cancel
  | .other name =>
    if name.length = 7 ∧ stricmp name (ascii "MESSAGE") = true then some .message else none

/-- ACK, BYE and CANCEL are reported and then left to PJSIP. -/
def RequestKind.inDialog : RequestKind → Bool
  | .ack | .bye | .cancel => true
  | _ => false

/-- OPTIONS and MESSAGE need a registered source. -/
def RequestKind.needsSource : RequestKind → Bool
  | .options | .message => true
  | _ => false

/-! ## Handling -/

/-- What `gmv_emit_event_ex` reads off a request. -/
def requestEvent (eventType : EventType) (statusCode : ℕ) (pjStatus : PjStatus)
    (request : Request) : Event :=
  { registerEvent eventType statusCode pjStatus request.rx 0 [] [] with
    expiresSeconds :=
      if request.rx.msg.method = .register then registerExpires request.rx.msg
      else messageExpires request.rx.msg }

/-- Number an event of a request and hand it to the callback.
Source: `shim.c`, `gmv_emit_event` -/
def RxRuntime.emit (rt : RxRuntime) (event : Event) : RxRuntime × RequestAction :=
  let (auth, action) := emitEvent rt.auth event
  ({ rt with auth := auth }, .shim action)

/-- Accept an INVITE that was permitted.
Source: `shim.c`, `gmv_handle_incoming_invite` -/
def handleIncomingInvite (env : InviteEnv) (rt : RxRuntime) (request : Request) : RxResult :=
  let failed status actions : RxResult := ⟨true, rt.setLastStatus status, none, actions⟩
  let answered := if env.initialAnswer = .success then env.sendMsg else env.initialAnswer
  if env.createDialog ≠ .success then ⟨false, rt.setLastStatus env.createDialog, none, []⟩
  else if env.createSession ≠ .success then failed env.createSession [.dialogRespond 500]
  else if env.setTransport ≠ .success then failed env.setTransport [.inviteTerminate 500]
  else if answered ≠ .success then failed answered
    (if env.initialAnswer = .success then [.trying, .inviteTerminate 500]
    else [.inviteTerminate 500])
  else if !env.callCalloc then failed .enomem [.trying, .inviteTerminate 500]
  else match copyView 256 (.bytes (request.rx.msg.callId.getD [])) with
    | none => failed .etoosmall [.trying, .inviteTerminate 500]
    | some callId =>
      let call : InviteCall :=
        ⟨callId, request.rx.origin.transport, request.rx.origin.associationId, true⟩
      let (rt, event) := RxRuntime.emit { rt with inviteCalls := call :: rt.inviteCalls }
        (requestEvent .incomingInvite 100 .success request)
      ⟨true, rt.setLastStatus .success, none, [.trying, event]⟩

/-- Answer a request with 200. -/
def respondOk (env : SendEnv) (rt : RxRuntime) : PjStatus × RxRuntime × List RequestAction :=
  let (status, auth, actions) := sendResponse env rt.auth none 200 false false
  (status, { rt with auth := { auth with lastStatus := status } }, actions.map .shim)

/-- Report a request that passed the checks, and answer it.
Source: `shim_auth.inc`, `gmv_on_rx_request` -/
def reportRequest (pj : Pjsip) (env : RequestEnv) (rt : RxRuntime) (transaction : ℕ)
    (kind : RequestKind) (request : Request) : RxResult :=
  let (rt, received) := rt.emit (requestEvent .requestReceived 0 .success request)
  if kind.inDialog then ⟨false, rt, none, [received]⟩
  else if kind = .register then
    let (auth, queued, actions) := handleRegister pj env.register rt.auth transaction request.rx
    ⟨true, { rt with auth := auth }, queued, received :: actions.map .shim⟩
  else
    let (status, rt, response) := respondOk env.send rt
    let (rt, outcome) := rt.emit (
      if status = .success then requestEvent .responseSent 200 status request
      else requestEvent .runtimeFault 0 status request)
    ⟨true, rt, none, received :: response ++ [outcome]⟩

/-- Look a request up among the recent ones; a REGISTER is not.
Source: `shim_auth.inc`, `gmv_on_rx_request` -/
def handleRequest (pj : Pjsip) (env : RequestEnv) (rt : RxRuntime) (transaction : ℕ)
    (kind : RequestKind) (request : Request) : RxResult :=
  if kind = .register then reportRequest pj env rt transaction kind request
  else
    let (seen, recent) :=
      recentRequestSeen env.recentNow env.recentCalloc request rt.recentRequests
    let rt := { rt with recentRequests := recent }
    if !seen then reportRequest pj env rt transaction kind request
    else if kind.inDialog then ⟨false, rt, none, []⟩
    else
      let (_, rt, response) := respondOk env.send rt
      ⟨true, rt, none, response⟩

/-- Whether the source of an OPTIONS or MESSAGE request is registered. Only a MESSAGE may come from
a source to recover from. -/
def checkSource (env : RequestEnv) (rt : RxRuntime) (kind : RequestKind) (request : Request) :
    Bool × RxRuntime :=
  let (allowed, grants) := registeredSourceAllowed env.sourceNow request.rx.origin.transport
    request.rx.origin.sourceName (fromUser request) (decide (kind = .message))
    ⟨rt.auth.registeredSources, rt.auth.registerOrders⟩
  (allowed, { rt with auth := { rt.auth with
    registeredSources := grants.sources
    registerOrders := grants.orders } })

/-- The dispatcher. `transaction` is the number of the transaction PJSIP would create.
Source: `shim_auth.inc`, `gmv_on_rx_request` -/
def onRxRequest (pj : Pjsip) (env : RequestEnv) (rt : RxRuntime) (transaction : ℕ)
    (request : Request) : RxResult :=
  match requestKind request.rx.msg.method with
  | none => ⟨false, rt, none, []⟩
  | some kind =>
    if kind.needsSource then
      let (allowed, rt) := checkSource env rt kind request
      if !allowed then ⟨true, rt.setLastStatus .success, none, []⟩
      else handleRequest pj env rt transaction kind request
    else if kind = .invite then
      let (permitted, allows) :=
        consumeIncomingInviteAllow env.inviteNow request rt.incomingInviteAllows
      let rt := { rt with incomingInviteAllows := allows }
      if !permitted then ⟨true, rt.setLastStatus .success, none, []⟩
      else handleIncomingInvite env.invite rt request
    else handleRequest pj env rt transaction kind request

/-! ## REGISTER -/

/-- **A REGISTER is handled as in `Auth`.** -/
theorem onRxRequest_register (pj : Pjsip) (env : RequestEnv) (rt : RxRuntime) (s : Sys)
    (request : Request) (hruntime : s.runtime = rt.auth)
    (hmethod : request.rx.msg.method = .register) :
    let result := onRxRequest pj env rt s.transactions request
    let s' := receiveRegister pj env.register s request.rx
    result.runtime.auth = s'.runtime ∧
      s'.history.head?.map Record.actions = some (result.actions.filterMap fun
        | .shim action => some action
        | _ => none) := by
  have hevent : requestEvent .requestReceived 0 .success request =
      registerEvent .requestReceived 0 .success request.rx 0 [] [] := by
    rw [requestEvent, if_pos hmethod]
    rfl
  have hactions : ∀ actions : List Action, (actions.map RequestAction.shim).filterMap (fun
      | .shim action => some action
      | _ => none) = actions := by
    intro actions
    rw [List.filterMap_map]
    exact List.filterMap_some
  simp only [onRxRequest, hmethod, requestKind, RequestKind.needsSource, Bool.false_eq_true,
    if_false, reduceCtorEq, handleRequest, if_true, reportRequest, RequestKind.inDialog, hevent,
    RxRuntime.emit, receiveRegister, hruntime]
  refine ⟨trivial, ?_⟩
  generalize handleRegister pj env.register _ s.transactions request.rx = result
  obtain ⟨auth, queued, actions⟩ := result
  cases queued with
  | none => exact congrArg some (congrArg (List.cons _) (hactions actions).symm)
  | some p => exact congrArg some (congrArg (List.cons _) (hactions actions).symm)

/-! ## Sources -/

/-- A source that is registered for the sender of a request, with its transport and address, and in
force: it is live, or it has not expired and the request is a MESSAGE. -/
def InForce (now : ℕ) (kind : RequestKind) (rt : RxRuntime) (request : Request) : Prop :=
  ∃ source ∈ rt.auth.registeredSources, source.deviceId = fromUser request ∧
    source.transport = request.rx.origin.transport ∧
    source.remoteAddress = request.rx.origin.sourceName ∧
    (source.recoveryExpiresAtMs = 0 ∨ now < source.recoveryExpiresAtMs ∧ kind = .message)

/-- The application is told that a request was received. -/
def Reported (result : RxResult) : Prop :=
  ∃ event, RequestAction.shim (.emit event) ∈ result.actions ∧ event.eventType = .requestReceived

section

variable {pj : Pjsip} {env : RequestEnv} {rt : RxRuntime} {transaction : ℕ} {kind : RequestKind}
  {request : Request}

/-- A source that is let through is in force. -/
theorem inForce_of_checkSource (h : (checkSource env rt kind request).1 = true) :
    InForce env.sourceNow kind rt request := by
  simp only [checkSource, registeredSourceAllowed, cleanupRecoverySources_sources] at h
  split_ifs at h with hempty
  obtain ⟨source, hsource, hadmits⟩ := List.any_eq_true.mp h
  obtain ⟨hmem, hkept⟩ := List.mem_filter.mp hsource
  simp only [RegisteredSource.admits, transportAndSourceMatch, Bool.and_eq_true, Bool.or_eq_true,
    decide_eq_true_eq] at hadmits
  obtain ⟨hdevice, hvalid, htransport, haddress⟩ := hadmits
  refine ⟨source, hmem, hdevice.symm, htransport, haddress, ?_⟩
  by_cases hlive : source.recoveryExpiresAtMs = 0
  · exact Or.inl hlive
  · refine Or.inr ⟨?_, hvalid.resolve_left hlive⟩
    simp only [kept, Bool.not_eq_true', decide_eq_false_iff_not, not_and] at hkept
    exact Nat.not_le.mp (hkept (Nat.pos_iff_ne_zero.mpr hlive))

theorem reported_reportRequest : Reported (reportRequest pj env rt transaction kind request) := by
  refine ⟨{ requestEvent .requestReceived 0 .success request with
    eventId := u64 (rt.auth.eventSequence + 1) }, ?_, rfl⟩
  cases kind <;> exact List.mem_cons_self

/-- An INVITE is reported as such. -/
theorem not_reported_handleIncomingInvite {env : InviteEnv} :
    ¬ Reported (handleIncomingInvite env rt request) := by
  rintro ⟨event, hmem, htype⟩
  have hevent : event.eventType = .incomingInvite := by
    unfold handleIncomingInvite at hmem
    dsimp only at hmem
    split_ifs at hmem
    all_goals try simp at hmem
    rcases hcopy : copyView 256 (.bytes (request.rx.msg.callId.getD [])) with _ | callId
    · rw [hcopy] at hmem
      simp at hmem
    · rw [hcopy] at hmem
      simp only [RxRuntime.emit, emitEvent, List.mem_cons, reduceCtorEq, false_or,
        RequestAction.shim.injEq, Action.emit.injEq, List.not_mem_nil, or_false] at hmem
      rw [hmem]
      rfl
  rw [hevent] at htype
  cases htype

/-- A request whose source is checked gets no further without one. -/
theorem checkSource_of_reported (hkind : requestKind request.rx.msg.method = some kind)
    (hneeds : kind.needsSource = true)
    (hreported : Reported (onRxRequest pj env rt transaction request)) :
    (checkSource env rt kind request).1 = true := by
  by_contra hrefused
  obtain ⟨event, hmem, -⟩ := hreported
  simp only [onRxRequest, hkind, hneeds, if_true, Bool.eq_false_iff.mpr hrefused,
    Bool.not_false] at hmem
  cases hmem

theorem not_reported_invite (hkind : requestKind request.rx.msg.method = some .invite) :
    ¬ Reported (onRxRequest pj env rt transaction request) := by
  simp only [onRxRequest, hkind, RequestKind.needsSource, Bool.false_eq_true, if_false, if_true]
  split_ifs
  · rintro ⟨event, hmem, -⟩
    cases hmem
  · exact not_reported_handleIncomingInvite

/-- ACK, BYE and CANCEL are reported unless they were seen before. -/
theorem reported_inDialog_iff (hkind : requestKind request.rx.msg.method = some kind)
    (hdialog : kind.inDialog = true) :
    Reported (onRxRequest pj env rt transaction request) ↔
      (recentRequestSeen env.recentNow env.recentCalloc request rt.recentRequests).1 = false := by
  have hregister : kind ≠ .register := by
    rintro rfl
    cases hdialog
  have hdispatch : onRxRequest pj env rt transaction request =
      handleRequest pj env rt transaction kind request := by
    rw [onRxRequest, hkind]
    cases kind <;> first | rfl | cases hdialog
  rw [hdispatch, handleRequest, if_neg hregister]
  dsimp only
  rcases hseen : (recentRequestSeen env.recentNow env.recentCalloc request rt.recentRequests).1
  · exact iff_of_true reported_reportRequest rfl
  · rw [hdialog]
    refine iff_of_false ?_ Bool.noConfusion
    rintro ⟨event, hmem, -⟩
    cases hmem

end

/-- **Which requests reach the application.** For every state of a runtime and every request,

* an OPTIONS or MESSAGE request is reported only under a source that is in force for it;
* an INVITE is never reported as a received request;
* an ACK, BYE or CANCEL is reported unless it was seen before, whatever was granted. -/
theorem requests_reported_under_grant (pj : Pjsip) (env : RequestEnv) (rt : RxRuntime)
    (transaction : ℕ) (request : Request) (kind : RequestKind)
    (hkind : requestKind request.rx.msg.method = some kind) :
    (kind.needsSource = true → Reported (onRxRequest pj env rt transaction request) →
      InForce env.sourceNow kind rt request) ∧
    (kind = .invite → ¬ Reported (onRxRequest pj env rt transaction request)) ∧
    (kind.inDialog = true → (Reported (onRxRequest pj env rt transaction request) ↔
      (recentRequestSeen env.recentNow env.recentCalloc request rt.recentRequests).1 = false)) := by
  refine ⟨?_, ?_, reported_inDialog_iff hkind⟩
  · intro hneeds hreported
    exact inForce_of_checkSource (checkSource_of_reported hkind hneeds hreported)
  · rintro rfl
    exact not_reported_invite hkind

/-- A request of the device 3402 from 10.0.0.1. -/
def sampleRequest (method : SipMethod) : Request :=
  let address := ascii "10.0.0.1"
  let uri user : Option Uri := some (.sip ⟨user, address, 5060, []⟩)
  let msg : SipMsg :=
    ⟨method, uri (ascii "1301"), uri (ascii "3402"), [], some (ascii "c"), some 1, none, none⟩
  ⟨⟨⟨.udp, 0, address, 5060⟩, [], msg⟩, uri (ascii "1301"), none, ascii "M", some (ascii "z9hG4bK1")⟩

/-- Everything succeeds and the clocks stand still. -/
def sampleRequestEnv : RequestEnv :=
  let send : SendEnv := ⟨.success, true, [9], 0, .success, .success, .success⟩
  let queue : QueueEnv := ⟨true, true, .success, .success, .success, 0⟩
  ⟨0, 0, 0, true, ⟨.success, .success, .success, .success, .success, true⟩, ⟨0, queue, send⟩, send⟩

/-- A new runtime with the given sources. -/
def sampleRxRuntime (sources : List RegisteredSource) : RxRuntime :=
  ⟨{ (Sys.init sampleConfig).runtime with registeredSources := sources }, [], ⟨[], 0⟩, []⟩

theorem requests_reported_under_grant_options :
    let rt := sampleRxRuntime [⟨.udp, ascii "3402", ascii "10.0.0.1", 1, 0⟩]
    Reported (onRxRequest samplePjsip sampleRequestEnv rt 0 (sampleRequest .options)) ∧
      InForce 0 .options rt (sampleRequest .options) := by
  intro rt
  have hreported : Reported (onRxRequest samplePjsip sampleRequestEnv rt 0 (sampleRequest .options)) :=
    ⟨_, List.mem_cons_self, rfl⟩
  exact ⟨hreported, (requests_reported_under_grant samplePjsip sampleRequestEnv rt 0
    (sampleRequest .options) .options rfl).1 rfl hreported⟩

/-- **A BYE reaches the application from anywhere.** The runtime has no source at all. -/
theorem bye_reported_without_grant :
    ∃ pj env rt transaction request, requestKind request.rx.msg.method = some .bye ∧
      Reported (onRxRequest pj env rt transaction request) ∧
      ∀ now kind, ¬ InForce now kind rt request := by
  refine ⟨samplePjsip, sampleRequestEnv, sampleRxRuntime [], 0, sampleRequest .bye, rfl, ?_, ?_⟩
  · exact (reported_inDialog_iff rfl rfl).mpr (recentRequestSeen_empty _ _ _ _)
  · rintro now kind ⟨source, hsource, -⟩
    cases hsource

end GmvPjsip.Access
