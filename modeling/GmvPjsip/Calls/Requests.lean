import GmvPjsip.Access.Dispatch
import GmvPjsip.Calls.Scan
import GmvPjsip.Commands.Payload

/-!
# Requests of calls

The commands of the owner thread that create, use and end calls, with every exit, and the INVITEs that
come in. Each function gets as an environment what PJSIP and the allocator answer, and the signals PJSIP
gives from inside a call that sends.

* `sendInviteOnOwner`, `sendDialogOnOwner` and `respondInviteOnOwner` execute a command;
  `handleIncomingInvite` accepts an INVITE; `closeAssociationCalls` sweeps the list.
* `Op` is one thing that happens to the calls of a runtime, `CallRuntime.step` its effect and
  `runCalls` what a run makes of a runtime without calls.
-/

namespace GmvPjsip.Calls

open GmvPjsip.Auth
open GmvPjsip.Commands

/-! ## Shared parts -/

/-- `PJSIP_EUNSUPTRANSPORT`. -/
def eunsuptransport : PjStatus := .other 171060

/-- `PJSIP_EINVALIDURI`. -/
def einvaliduri : PjStatus := .other 171039

/-- The status of the first call that fails; the calls behind it are not made. -/
def firstFailure : List PjStatus → PjStatus
  | [] => .success
  | status :: rest => if status = .success then firstFailure rest else status

/-- A type and a subtype with a slash between them. -/
def isMediaType (contentType : Bytes) : Bool :=
  match contentType.findIdx? (· == 47) with
  | none => false
  | some slash => slash ≠ 0 && slash + 1 ≠ contentType.length

/-- Give a request a body, if there is one. `poolOk` is whether PJSIP can allocate it.
Source: `shim.c`, `gmv_set_subscription_body` -/
def setSubscriptionBody (poolOk : Bool) (contentType body : Bytes) : PjStatus :=
  if contentType = [] ∨ body = [] then .success
  else if !isMediaType contentType then .einval
  else if poolOk then .success
  else .enomem

/-- A call of PJSIP that sends: what it returns, and the signals it gives before it returns. -/
structure SendEnv where
  status : PjStatus
  during : List Signal

/-! ## INVITE -/

/-- What an outbound INVITE meets outside the shim. -/
structure SendInviteEnv where
  /-- `runtime->started && runtime->endpoint`. -/
  ready : Bool
  /-- `gmv_find_transport` finds one. -/
  transportFound : Bool
  /-- `pjsip_dlg_create_uac`. -/
  createUac : PjStatus
  /-- `pjsip_ua_unregister_dlg`. -/
  unregister : PjStatus
  /-- `pjsip_ua_register_dlg`. -/
  register : PjStatus
  /-- `pjmedia_sdp_parse`. -/
  sdpParse : PjStatus
  /-- `pjsip_inv_create_uac`. -/
  createSession : PjStatus
  /-- `pjsip_dlg_add_usage`. -/
  addUsage : PjStatus
  /-- `pjsip_dlg_set_transport`. -/
  setTransport : PjStatus
  callCalloc : Option ℕ
  /-- `pjsip_inv_invite`. -/
  invite : PjStatus
  bodyPool : Bool
  /-- `pjsip_inv_send_msg`. -/
  send : SendEnv

/-- The part of `gmv_send_invite_on_owner` that makes the call: the address and the Call-ID of its
record, or the status it returns. -/
def prepareInvite (s : CallRuntime) (env : SendInviteEnv) (command : InviteCommand) :
    Except PjStatus (ℕ × Bytes) :=
  if command.operationId = 0 ∨ command.targetUri = [] ∨ command.toUri = [] ∨ command.fromUri = [] ∨
      command.contactUri = [] ∨ command.callId = [] ∨ command.localTag = [] ∨
      validCseq command.localCseq = false ∨ command.sdp = [] ∨ env.ready = false then
    .error .einval
  else if env.transportFound = false then .error eunsuptransport
  else
    let status := firstFailure [env.createUac, env.unregister, env.register, env.sdpParse,
      env.createSession, env.addUsage, env.setTransport]
    if status ≠ .success then .error status
    else match s.calloc env.callCalloc with
      | none => .error .enomem
      | some address =>
        match copyView callIdCapacity (.bytes command.callId) with
        | none => .error .etoosmall
        | some callId => .ok (address, callId)

/-- The record of an outbound INVITE. -/
def inviteCall (serial address : ℕ) (command : InviteCommand) (callId : Bytes) : InviteCall where
  serial := serial
  address := address
  operationId := command.operationId
  dialogOperationId := 0
  transport := command.transport
  associationId := command.associationId
  callId := callId
  invite := some .null
  told := false
  inviteFinalEmitted := false
  dialogRoute := none
  cleanupPending := false

/-- The session of a record is given up and the record is taken out of the list. -/
def CallRuntime.dropInviteCall (s : CallRuntime) (pointer : ℕ) : CallRuntime :=
  (s.write pointer fun r => { r with invite := none }).removeInviteCall pointer

/-- Source: `shim_invite.inc`, `gmv_send_invite_on_owner` -/
def sendInviteOnOwner (s : CallRuntime) (command : InviteCommand) (env : SendInviteEnv) :
    PjStatus × CallRuntime :=
  match prepareInvite s env command with
  | .error status => (status, s)
  | .ok (address, callId) =>
    let s := (s.push (inviteCall s.serials address command callId)).holdInviteCall address
    let made := firstFailure [env.invite,
      setSubscriptionBody env.bodyPool (ascii "application/sdp") command.sdp]
    let status := if made = .success then env.send.status else made
    let s := if made = .success then s.signals env.send.during else s
    let s := if status ≠ .success ∧ s.cleanupPending address = false then s.dropInviteCall address
      else s
    (status, s.releaseInviteCall address)

/-! ## In-dialog requests -/

/-- What a restored request meets outside the shim. -/
structure RestoredEnv where
  transportFound : Bool
  /-- `pjsip_dlg_create_uac`. -/
  createUac : PjStatus
  /-- `pjsip_dlg_inc_session`. -/
  incSession : PjStatus
  /-- Whether `pjsip_parse_hdr` accepts a route. -/
  parseRoute : Bytes → Bool
  /-- `pjsip_dlg_set_route_set`. -/
  setRouteSet : PjStatus
  /-- `pjsip_ua_unregister_dlg`. -/
  unregister : PjStatus
  /-- `pjsip_ua_register_dlg`. -/
  register : PjStatus
  /-- `pjsip_dlg_add_usage`. -/
  addUsage : PjStatus
  /-- `pjsip_dlg_set_transport`. -/
  setTransport : PjStatus
  /-- `pjsip_dlg_create_request`. -/
  createRequest : PjStatus
  bodyPool : Bool
  operationCalloc : Bool
  callCalloc : Option ℕ
  /-- `gmv_init_address`. -/
  initAddress : Bytes → ℕ → Except PjStatus SockAddr
  /-- `pjsip_dlg_send_request`. -/
  send : SendEnv

/-- What a BYE meets outside the shim. `pjsip_inv_end_session` may succeed without a message. -/
structure ByeEnv where
  endSession : SendEnv
  hasMessage : Bool
  send : SendEnv

/-- What an INFO meets outside the shim. -/
structure InfoEnv where
  createRequest : PjStatus
  bodyCreate : Bool
  operationCalloc : Bool
  send : SendEnv

/-- What a dialog command meets outside the shim. -/
structure DialogEnv where
  started : Bool
  restored : RestoredEnv
  bye : ByeEnv
  info : InfoEnv

/-- The routes of a restored dialog, one a line.
Source: `shim_dialog.inc`, `gmv_send_dialog_on_owner` -/
def routeLines (routeSet : Bytes) : List Bytes := (routeSet.splitOn 10).filter fun line => line ≠ []

/-- The part of `gmv_send_dialog_on_owner` that rebuilds a dialog: the address of its record and its
route, or the status it returns. -/
def prepareRestored (s : CallRuntime) (env : RestoredEnv) (command : DialogCommand) :
    Except PjStatus (ℕ × SockAddr) :=
  let routes := routeLines command.routeSet
  if env.transportFound = false then .error eunsuptransport
  else
    let status := firstFailure [env.createUac, env.incSession,
      if routes.all env.parseRoute then .success else einvaliduri,
      if routes = [] then .success else env.setRouteSet,
      env.unregister, env.register, env.addUsage, env.setTransport, env.createRequest,
      if command.method = .info then
        setSubscriptionBody env.bodyPool command.contentType command.body
      else .success]
    if status ≠ .success then .error status
    else if env.operationCalloc = false then .error .enomem
    else match s.calloc env.callCalloc with
      | none => .error .enomem
      | some address =>
        (env.initAddress command.remoteAddress command.remotePort).map fun route =>
          (address, route)

/-- The record of a restored dialog. -/
def restoredCall (serial address : ℕ) (command : DialogCommand) (route : SockAddr) : InviteCall where
  serial := serial
  address := address
  operationId := 0
  dialogOperationId := 0
  transport := command.transport
  associationId := command.associationId
  callId := command.callId
  invite := none
  told := false
  inviteFinalEmitted := false
  dialogRoute := some route
  cleanupPending := false

section operations

variable (s : CallRuntime) (serial : ℕ)

/-- Source: `shim.c`, `gmv_hold_dialog_operation` -/
def CallRuntime.holdDialogOperation : CallRuntime :=
  { s with heldOperations := serial :: s.heldOperations }

/-- Source: `shim.c`, `gmv_release_dialog_operation` -/
def CallRuntime.releaseDialogOperation : CallRuntime :=
  if serial ∉ s.heldOperations then s
  else { s with
    heldOperations := s.heldOperations.erase serial
    operations := if serial ∈ s.heldOperations.erase serial then s.operations
      else s.operations.filter fun o => ¬(o.serial = serial ∧ o.cleanupPending) }

/-- Send the request of an operation, which is completed at once if that fails. -/
def CallRuntime.sendOperation (env : SendEnv) : PjStatus × CallRuntime :=
  let s := (s.holdDialogOperation serial).signals env.during
  let s := if env.status ≠ .success then s.completeDialogOperation serial else s
  (env.status, s.releaseDialogOperation serial)

end operations

/-- Put an operation into the runtime. -/
def CallRuntime.begin (s : CallRuntime) (operation : DialogOperation) : CallRuntime :=
  { s with operations := operation :: s.operations }

/-- Source: `shim_dialog.inc`, `gmv_send_dialog_on_owner` -/
def sendRestored (s : CallRuntime) (command : DialogCommand) (env : RestoredEnv) :
    PjStatus × CallRuntime :=
  match prepareRestored s env command with
  | .error status => (status, s)
  | .ok (address, route) =>
    ((s.push (restoredCall s.serials address command route)).begin
      ⟨s.serials, command.operationId, true, some address, false⟩).sendOperation s.serials
      env.send

/-- Source: `shim_dialog.inc`, `gmv_send_dialog_on_owner` -/
def sendBye (s : CallRuntime) (call : InviteCall) (command : DialogCommand) (env : ByeEnv) :
    PjStatus × CallRuntime :=
  if call.dialogOperationId ≠ 0 then (.ebusy, s)
  else
    let s := (s.write call.address fun r =>
      { r with dialogOperationId := command.operationId }).holdInviteCall call.address
    let s := s.signals env.endSession.during
    let sends := env.endSession.status = .success ∧ env.hasMessage = true
    let status := if sends then env.send.status else env.endSession.status
    let s := if sends then s.signals env.send.during else s
    let s := if status ≠ .success then
        s.write call.address fun r => { r with dialogOperationId := 0 }
      else s
    (status, s.releaseInviteCall call.address)

/-- Source: `shim_dialog.inc`, `gmv_send_dialog_on_owner` -/
def sendInfo (s : CallRuntime) (command : DialogCommand) (env : InfoEnv) : PjStatus × CallRuntime :=
  if command.method ≠ .info ∨ command.contentType = [] ∨ command.body = [] ∨
      isMediaType command.contentType = false then (.einval, s)
  else if env.createRequest ≠ .success then (env.createRequest, s)
  else if env.bodyCreate = false ∨ env.operationCalloc = false then (.enomem, s)
  else
    ({ s with serials := s.serials + 1 }.begin
      ⟨s.serials, command.operationId, false, none, false⟩).sendOperation s.serials env.send

/-- Source: `shim_dialog.inc`, `gmv_send_dialog_on_owner` -/
def sendDialogOnOwner (s : CallRuntime) (command : DialogCommand) (env : DialogEnv) :
    PjStatus × CallRuntime :=
  if command.operationId = 0 ∨ command.callId = [] ∨ env.started = false then (.einval, s)
  else if command.restored then sendRestored s command env.restored
  else match s.findInviteCall command.callId with
    | none => (.enotfound, s)
    | some call =>
      if call.invite = none then (.enotfound, s)
      else if command.method = .bye then sendBye s call command env.bye
      else sendInfo s command env.info

/-! ## Answers to INVITEs, and INVITEs that come in -/

/-- What the answer to an INVITE meets outside the shim. -/
structure RespondEnv where
  started : Bool
  bodyPool : Bool
  /-- `pjmedia_sdp_parse`. -/
  sdpParse : PjStatus
  /-- `pjsip_inv_answer`. -/
  answer : PjStatus
  /-- `pjsip_inv_send_msg`. -/
  send : SendEnv

/-- A success is answered with a session description.
Source: `shim_dialog.inc`, `gmv_respond_invite_on_owner` -/
def answerSdp (command : InviteResponseCommand) (env : RespondEnv) : PjStatus :=
  if 300 ≤ command.statusCode then .success
  else if command.contentType = [] ∨ command.body = [] ∨
    stricmp command.contentType (ascii "application/sdp") = false then .einval
  else if env.bodyPool = false then .enomem
  else env.sdpParse

/-- Source: `shim_dialog.inc`, `gmv_respond_invite_on_owner` -/
def respondInviteOnOwner (s : CallRuntime) (command : InviteResponseCommand) (env : RespondEnv) :
    PjStatus × CallRuntime :=
  if command.statusCode < 200 ∨ 699 < command.statusCode ∨ command.callId = [] ∨
      env.started = false then (.einval, s)
  else match s.findInviteCall command.callId with
    | none => (.enotfound, s)
    | some call =>
      if call.invite = none ∨ call.operationId ≠ 0 then (.enotfound, s)
      else if answerSdp command env ≠ .success then (answerSdp command env, s)
      else
        let s := s.holdInviteCall call.address
        if env.answer ≠ .success then (env.answer, s.releaseInviteCall call.address)
        else
          (env.send.status, (s.signals env.send.during).releaseInviteCall call.address)

/-- What an INVITE that comes in says, and where it came in. -/
structure IncomingInvite where
  callId : Bytes
  transport : SipTransport
  associationId : ℕ
  deriving DecidableEq, Repr

/-- The record of an INVITE that was accepted. There is no operation to report. -/
def incomingCall (serial address : ℕ) (invite : IncomingInvite) (callId : Bytes) : InviteCall where
  serial := serial
  address := address
  operationId := 0
  dialogOperationId := 0
  transport := invite.transport
  associationId := invite.associationId
  callId := callId
  invite := some .incoming
  told := false
  inviteFinalEmitted := true
  dialogRoute := none
  cleanupPending := false

/-- `address` is what `calloc` returns. The access checks in front of this are in `Access.Dispatch`.
Source: `shim.c`, `gmv_handle_incoming_invite` -/
def handleIncomingInvite (s : CallRuntime) (invite : IncomingInvite) (env : Access.InviteEnv)
    (address : Option ℕ) : CallRuntime :=
  if firstFailure [env.createDialog, env.createSession, env.setTransport, env.initialAnswer,
      env.sendMsg] ≠ .success then s
  else match s.calloc address with
    | none => s
    | some address =>
      match copyView callIdCapacity (.bytes invite.callId) with
      | none => s
      | some callId =>
        (s.push (incomingCall s.serials address invite callId)).emit
          [⟨.incomingInvite, invite.transport, 100, .success, some .invite, 0⟩]

/-! ## Closing an association -/

/-- Source: `shim.c`, `gmv_close_association_calls` -/
def CallRuntime.closeAssociationCalls (s : CallRuntime) (transport : SipTransport)
    (associationId : ℕ) : CallRuntime :=
  (s.inviteCalls.filter fun r => r.transport = transport ∧ r.associationId = associationId).foldl
    (fun s r => s.dropInviteCall r.address) s

/-- What a close meets: whether `gmv_find_transport` finds a TCP transport, and the signals PJSIP gives
while the pending sends of the transport fail. -/
structure CloseEnv where
  transportFound : Bool
  during : List Signal

/-- Source: `shim.c`, `gmv_process_close_commands` -/
def processCloseCommand (s : CallRuntime) (command : CloseCommand) (env : CloseEnv) : CallRuntime :=
  if env.transportFound then
    (s.signals env.during).closeAssociationCalls command.transport command.associationId
  else s

/-! ## Runs -/

/-- One thing that happens. -/
inductive Op
  /-- PJSIP gives a signal. -/
  | signal (σ : Signal)
  /-- A packet comes in; PJSIP gives signals while it handles it. -/
  | receive (packet : Bytes) (source : SockAddr) (during : List Signal)
  | invite (command : InviteCommand) (env : SendInviteEnv)
  | dialog (command : DialogCommand) (env : DialogEnv)
  | respond (command : InviteResponseCommand) (env : RespondEnv)
  | incoming (invite : IncomingInvite) (env : Access.InviteEnv) (address : Option ℕ)
  | close (command : CloseCommand) (env : CloseEnv)

/-- What happens. A command that fails is reported by its dispatcher, which does not touch the
calls. -/
def CallRuntime.step (s : CallRuntime) : Op → CallRuntime
  | .signal σ => s.signal σ
  | .receive packet source during => (s.captureInviteDialogRoute packet source).signals during
  | .invite command env => (sendInviteOnOwner s command env).2
  | .dialog command env => (sendDialogOnOwner s command env).2
  | .respond command env => (respondInviteOnOwner s command env).2
  | .incoming invite env address => handleIncomingInvite s invite env address
  | .close command env => processCloseCommand s command env

/-- What a run makes of a runtime without calls. -/
def runCalls (ops : List Op) : CallRuntime := ops.foldl .step .init

end GmvPjsip.Calls
