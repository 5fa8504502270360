import GmvPjsip.Auth.Runtime
import GmvPjsip.Lib.Except

/-!
# The commands of the owner thread

The application and the socket layer never call PJSIP. They submit: each of ten functions of the
shim checks its argument, copies it into a command of its own and queues the command for the next
poll.

* Each function is written as what it refuses its argument for and the command it makes of it. The
  queueing is in `Commands.Queues`.
* `Submission.asGiven` says which field values a submission gives. `Submission.command_asGiven`: a
  command that is accepted carries these.
-/

namespace GmvPjsip.Commands

open GmvPjsip.Auth GmvPjsip.Lib

/-! ## Refusals -/

/-- Why a submission is not queued. -/
inductive Refusal
  /-- The function returns this status. -/
  | status (status : PjStatus)
  /-- `memcpy` reads from a null pointer. -/
  | crash
  deriving DecidableEq, Repr

/-- Whether the allocations of a submission succeed: that of the command and that of its body. -/
structure Alloc where
  calloc : Bool
  malloc : Bool
  deriving DecidableEq, Repr

/-- Go on only if the check holds. -/
def require (check : Bool) (status : PjStatus) : Except Refusal Unit :=
  if check then .ok () else .error (.status status)

/-- Copy a text into a buffer of the command. -/
def copyText (capacity : ℕ) (view : StringView) : Except Refusal Bytes :=
  match copyView capacity view with
  | some text => .ok text
  | none => .error (.status .etoosmall)

/-- Copy an address of a packet into a buffer of the command; it may not be empty. -/
def copyAddress (capacity : ℕ) (view : StringView) : Except Refusal Bytes :=
  match copyView capacity view with
  | some [] => .error (.status .einval)
  | some text => .ok text
  | none => .error (.status .einval)

/-- Allocate and copy a body. -/
def copyBody (mallocOk : Bool) (view : StringView) : Except Refusal Bytes :=
  if view.len = 0 then .ok []
  else if !mallocOk then .error (.status .enomem)
  else match view with
    | .null _ => .error .crash
    | .bytes data => .ok data

/-- The bytes of a view. -/
def viewText : StringView → Bytes
  | .null _ => []
  | .bytes data => data

theorem require_eq_ok {check : Bool} {status : PjStatus} {u : Unit} :
    require check status = .ok u ↔ check = true := by
  unfold require
  split <;> simp_all

variable {capacity : ℕ} {view : StringView} {text : Bytes} {pj : Pjsip}

/-- A text that was copied is the one of the view. -/
theorem copyView_eq_viewText (h : copyView capacity view = some text) : text = viewText view := by
  cases view with
  | null =>
    simp only [copyView] at h
    split_ifs at h
    exact (Option.some.inj h).symm
  | bytes => exact (copyView_bytes_eq_some h).1

theorem copyText_eq_viewText (h : copyText capacity view = .ok text) : text = viewText view := by
  unfold copyText at h
  split at h
  · next hcopy => exact Except.ok.inj h ▸ copyView_eq_viewText hcopy
  · cases h

/-- A text is copied when it fits with its NUL and holds none. -/
theorem copyText_bytes_eq_ok {data : Bytes} :
    copyText capacity (.bytes data) = .ok text ↔ (data.length < capacity ∧ 0 ∉ data) ∧ text = data := by
  unfold copyText copyView
  by_cases hfit : data.length < capacity ∧ 0 ∉ data
  · simp [hfit, eq_comm]
  · simp [hfit]

theorem copyAddress_eq_viewText
    (h : copyAddress capacity view = .ok text) : text = viewText view := by
  unfold copyAddress at h
  split at h
  · cases h
  · next hcopy => exact Except.ok.inj h ▸ copyView_eq_viewText hcopy
  · cases h

theorem copyBody_eq_viewText {mallocOk : Bool} {body : Bytes}
    (h : copyBody mallocOk view = .ok body) : body = viewText view := by
  unfold copyBody at h
  split_ifs at h with hlen
  · cases view with
    | null => exact (Except.ok.inj h).symm
    | bytes => exact (Except.ok.inj h).symm.trans (List.eq_nil_of_length_eq_zero hlen).symm
  · cases view with
    | null => cases h
    | bytes => exact (Except.ok.inj h).symm

/-! ## Arguments and commands -/

/-- `gmv_sip_dialog_method_t`; any other value is `unknown`. -/
inductive DialogMethod
  | unknown
  | bye
  | info
  deriving DecidableEq, Repr

/-- A `gmv_sip_received_packet_t`. -/
structure ReceivedPacket where
  size : ℕ
  version : ℕ
  associationId : ℕ
  transport : SipTransport
  data : StringView
  localAddress : StringView
  localPort : ℕ
  remoteAddress : StringView
  remotePort : ℕ
  deriving DecidableEq, Repr

/-- A `gmv_receive_command_t`. -/
structure ReceiveCommand where
  associationId : ℕ
  transport : SipTransport
  localAddress : Bytes
  localPort : ℕ
  remoteAddress : Bytes
  remotePort : ℕ
  data : Bytes
  deriving DecidableEq, Repr

/-- A `gmv_sip_send_completion_t`. -/
structure SendCompletion where
  size : ℕ
  version : ℕ
  sendId : ℕ
  sentBytes : Int
  deriving DecidableEq, Repr

/-- A `gmv_send_completion_command_t`. -/
structure SendCompletionCommand where
  sendId : ℕ
  sentBytes : Int
  deriving DecidableEq, Repr

/-- A `gmv_close_command_t`. -/
structure CloseCommand where
  associationId : ℕ
  transport : SipTransport
  status : PjStatus
  deriving DecidableEq, Repr

/-- A `gmv_sip_outbound_message_t`. -/
structure OutboundMessage where
  size : ℕ
  version : ℕ
  operationId : ℕ
  associationId : ℕ
  transport : SipTransport
  cseq : ℕ
  targetUri : StringView
  toUri : StringView
  fromUri : StringView
  contentType : StringView
  body : StringView
  deriving DecidableEq, Repr

/-- A `gmv_message_command_t`. -/
structure MessageCommand where
  operationId : ℕ
  associationId : ℕ
  transport : SipTransport
  cseq : ℕ
  targetUri : Bytes
  toUri : Bytes
  fromUri : Bytes
  contentType : Bytes
  body : Bytes
  deriving DecidableEq, Repr

/-- A `gmv_sip_outbound_invite_t`. -/
structure OutboundInvite where
  size : ℕ
  version : ℕ
  operationId : ℕ
  associationId : ℕ
  transport : SipTransport
  localCseq : ℕ
  callId : StringView
  localTag : StringView
  targetUri : StringView
  toUri : StringView
  fromUri : StringView
  contactUri : StringView
  subject : StringView
  sdp : StringView
  deriving DecidableEq, Repr

/-- A `gmv_invite_command_t`. -/
structure InviteCommand where
  operationId : ℕ
  associationId : ℕ
  transport : SipTransport
  localCseq : ℕ
  callId : Bytes
  localTag : Bytes
  targetUri : Bytes
  toUri : Bytes
  fromUri : Bytes
  contactUri : Bytes
  subject : Bytes
  sdp : Bytes
  deriving DecidableEq, Repr

/-- A `gmv_sip_dialog_request_t`. -/
structure DialogRequest where
  size : ℕ
  version : ℕ
  operationId : ℕ
  method : DialogMethod
  callId : StringView
  contentType : StringView
  body : StringView
  deriving DecidableEq, Repr

/-- A `gmv_sip_restored_dialog_request_t`. -/
structure RestoredDialogRequest where
  size : ℕ
  version : ℕ
  operationId : ℕ
  method : DialogMethod
  associationId : ℕ
  transport : SipTransport
  localCseq : ℕ
  callId : StringView
  localUri : StringView
  remoteUri : StringView
  localTag : StringView
  remoteTag : StringView
  remoteTarget : StringView
  routeSet : StringView
  remoteAddress : StringView
  remotePort : ℕ
  contentType : StringView
  body : StringView
  deriving DecidableEq, Repr

/-- A `gmv_dialog_command_t`. What only a restored request has is zero in the others. -/
structure DialogCommand where
  operationId : ℕ
  method : DialogMethod
  callId : Bytes
  contentType : Bytes
  body : Bytes
  restored : Bool
  associationId : ℕ
  transport : SipTransport
  localCseq : ℕ
  remotePort : ℕ
  localUri : Bytes
  remoteUri : Bytes
  localTag : Bytes
  remoteTag : Bytes
  remoteTarget : Bytes
  routeSet : Bytes
  remoteAddress : Bytes
  deriving DecidableEq, Repr

/-- A `gmv_sip_invite_response_t`. -/
structure InviteResponse where
  size : ℕ
  version : ℕ
  statusCode : ℕ
  callId : StringView
  reason : StringView
  contentType : StringView
  body : StringView
  deriving DecidableEq, Repr

/-- A `gmv_invite_response_command_t`. -/
structure InviteResponseCommand where
  statusCode : ℕ
  callId : Bytes
  reason : Bytes
  contentType : Bytes
  body : Bytes
  deriving DecidableEq, Repr

/-- A `gmv_sip_outbound_subscribe_t`. -/
structure OutboundSubscribe where
  size : ℕ
  version : ℕ
  operationId : ℕ
  associationId : ℕ
  transport : SipTransport
  localCseq : ℕ
  targetUri : StringView
  fromUri : StringView
  contactUri : StringView
  callId : StringView
  event : StringView
  expires : ℕ
  contentType : StringView
  body : StringView
  deriving DecidableEq, Repr

/-- A `gmv_subscribe_command_t`. -/
structure SubscribeCommand where
  operationId : ℕ
  associationId : ℕ
  transport : SipTransport
  localCseq : ℕ
  targetUri : Bytes
  fromUri : Bytes
  contactUri : Bytes
  callId : Bytes
  event : Bytes
  expires : ℕ
  contentType : Bytes
  body : Bytes
  deriving DecidableEq, Repr

/-! ## What each function accepts

`started` is whether the runtime was started, and has its command mutex. A refused argument is
reported before anything is allocated. -/

/-- `GMV_SIP_URI_CAPACITY`. -/
def uriCapacity : ℕ := 1024

/-- `GMV_SIP_TAG_CAPACITY`. -/
def tagCapacity : ℕ := 256

/-- `GMV_SIP_CONTENT_TYPE_CAPACITY`, also that of an event name. -/
def contentTypeCapacity : ℕ := 128

/-- `GMV_SIP_BIND_ADDRESS_CAPACITY`. -/
def bindAddressCapacity : ℕ := 64

/-- `INT32_MAX`. -/
def int32Max : ℕ := 2147483647

/-- The transport is UDP, or TCP with an association. -/
def hasRoute (transport : SipTransport) (associationId : ℕ) : Bool :=
  match transport with
  | .unknown => false
  | .udp => true
  | .tcp => associationId ≠ 0

/-- A CSeq PJSIP can continue from. -/
def validCseq (cseq : ℕ) : Bool := cseq ≠ 0 ∧ cseq ≤ int32Max

/-- Source: `shim.c`, `gmv_sip_runtime_receive_packet` -/
def receivePacket (pj : Pjsip) (alloc : Alloc) (started : Bool) (packet : ReceivedPacket) :
    Except Refusal ReceiveCommand := do
  require (88 ≤ packet.size ∧ packet.version = abiVersion ∧ started ∧
    StringView.isSet packet.data ∧ packet.data.len ≤ pj.maxPktLen ∧
    hasRoute packet.transport packet.associationId) .einval
  require alloc.calloc .enomem
  let localAddress ← copyAddress bindAddressCapacity packet.localAddress
  let remoteAddress ← copyAddress bindAddressCapacity packet.remoteAddress
  let data ← copyBody alloc.malloc packet.data
  return ⟨packet.associationId, packet.transport, localAddress, packet.localPort, remoteAddress,
    packet.remotePort, data⟩

/-- Source: `shim.c`, `gmv_sip_runtime_complete_send` -/
def completeSend (alloc : Alloc) (started : Bool) (completion : SendCompletion) :
    Except Refusal SendCompletionCommand := do
  require (24 ≤ completion.size ∧ completion.version = abiVersion ∧ completion.sendId ≠ 0 ∧
    started) .einval
  require alloc.calloc .enomem
  return ⟨completion.sendId, completion.sentBytes⟩

/-- Source: `shim.c`, `gmv_sip_runtime_close_transport` -/
def closeTransport (alloc : Alloc) (started : Bool) (associationId : ℕ) (transport : SipTransport)
    (status : PjStatus) : Except Refusal CloseCommand := do
  require (started ∧ associationId ≠ 0 ∧ transport = .tcp) .einval
  require alloc.calloc .enomem
  return ⟨associationId, transport, if status = .success then .eshutdown else status⟩

/-- Source: `shim.c`, `gmv_sip_runtime_send_message` -/
def sendMessage (alloc : Alloc) (started : Bool) (message : OutboundMessage) :
    Except Refusal MessageCommand := do
  require (112 ≤ message.size ∧ message.version = abiVersion ∧ message.operationId ≠ 0 ∧
    validCseq message.cseq ∧ hasRoute message.transport message.associationId ∧
    StringView.isSet message.targetUri ∧ StringView.isSet message.toUri ∧
    StringView.isSet message.fromUri ∧ StringView.isSet message.contentType ∧
    (0 < message.body.len → StringView.isSet message.body) ∧ started) .einval
  require alloc.calloc .enomem
  let targetUri ← copyText uriCapacity message.targetUri
  let toUri ← copyText uriCapacity message.toUri
  let fromUri ← copyText uriCapacity message.fromUri
  let contentType ← copyText contentTypeCapacity message.contentType
  let body ← copyBody alloc.malloc message.body
  return ⟨message.operationId, message.associationId, message.transport, message.cseq, targetUri,
    toUri, fromUri, contentType, body⟩

/-- Source: `shim.c`, `gmv_sip_runtime_send_invite` -/
def sendInvite (pj : Pjsip) (alloc : Alloc) (started : Bool) (invite : OutboundInvite) :
    Except Refusal InviteCommand := do
  require (160 ≤ invite.size ∧ invite.version = abiVersion ∧ invite.operationId ≠ 0 ∧
    hasRoute invite.transport invite.associationId ∧ validCseq invite.localCseq ∧
    StringView.isSet invite.callId ∧ StringView.isSet invite.localTag ∧
    StringView.isSet invite.targetUri ∧ StringView.isSet invite.toUri ∧
    StringView.isSet invite.fromUri ∧ StringView.isSet invite.contactUri ∧
    StringView.isSet invite.sdp ∧ invite.sdp.len ≤ pj.maxPktLen ∧ started) .einval
  require alloc.calloc .enomem
  let callId ← copyText callIdCapacity invite.callId
  let localTag ← copyText tagCapacity invite.localTag
  let targetUri ← copyText uriCapacity invite.targetUri
  let toUri ← copyText uriCapacity invite.toUri
  let fromUri ← copyText uriCapacity invite.fromUri
  let contactUri ← copyText uriCapacity invite.contactUri
  let subject ← copyText 512 invite.subject
  let sdp ← copyBody alloc.malloc invite.sdp
  return ⟨invite.operationId, invite.associationId, invite.transport, invite.localCseq, callId,
    localTag, targetUri, toUri, fromUri, contactUri, subject, sdp⟩

/-- What both dialog calls ask of the method and the body: an INFO has a body and its type. A BYE
may have a body too, and its pointer is not looked at. -/
def dialogBodyOk (pj : Pjsip) (method : DialogMethod) (contentType body : StringView) : Bool :=
  method ≠ .unknown ∧ (method = .info → StringView.isSet contentType ∧ StringView.isSet body) ∧
    body.len ≤ pj.maxPktLen

/-- Source: `shim.c`, `gmv_sip_runtime_send_dialog_request` -/
def sendDialogRequest (pj : Pjsip) (alloc : Alloc) (started : Bool) (request : DialogRequest) :
    Except Refusal DialogCommand := do
  require (72 ≤ request.size ∧ request.version = abiVersion ∧ request.operationId ≠ 0 ∧
    StringView.isSet request.callId ∧
    dialogBodyOk pj request.method request.contentType request.body ∧ started) .einval
  require alloc.calloc .enomem
  let callId ← copyText callIdCapacity request.callId
  let contentType ← copyText contentTypeCapacity request.contentType
  let body ← copyBody alloc.malloc request.body
  return ⟨request.operationId, request.method, callId, contentType, body, false, 0, .unknown, 0, 0,
    [], [], [], [], [], [], []⟩

/-- Source: `shim.c`, `gmv_sip_runtime_send_restored_dialog_request` -/
def sendRestoredDialogRequest (pj : Pjsip) (alloc : Alloc) (started : Bool)
    (request : RestoredDialogRequest) : Except Refusal DialogCommand := do
  require (208 ≤ request.size ∧ request.version = abiVersion ∧ request.operationId ≠ 0 ∧
    request.localCseq ≠ 0 ∧ StringView.isSet request.callId ∧
    StringView.isSet request.localUri ∧ StringView.isSet request.remoteUri ∧
    StringView.isSet request.localTag ∧ StringView.isSet request.remoteTag ∧
    StringView.isSet request.remoteTarget ∧ StringView.isSet request.remoteAddress ∧
    request.remotePort ≠ 0 ∧ hasRoute request.transport request.associationId ∧
    dialogBodyOk pj request.method request.contentType request.body ∧ started) .einval
  require alloc.calloc .enomem
  let callId ← copyText callIdCapacity request.callId
  let localUri ← copyText uriCapacity request.localUri
  let remoteUri ← copyText uriCapacity request.remoteUri
  let localTag ← copyText tagCapacity request.localTag
  let remoteTag ← copyText tagCapacity request.remoteTag
  let remoteTarget ← copyText uriCapacity request.remoteTarget
  let routeSet ← copyText 4096 request.routeSet
  let remoteAddress ← copyText bindAddressCapacity request.remoteAddress
  let contentType ← copyText contentTypeCapacity request.contentType
  let body ← copyBody alloc.malloc request.body
  return ⟨request.operationId, request.method, callId, contentType, body, true,
    request.associationId, request.transport, request.localCseq, request.remotePort, localUri,
    remoteUri, localTag, remoteTag, remoteTarget, routeSet, remoteAddress⟩

/-- A success response must have a body and its type; this is only found out once they are copied.
Source: `shim.c`, `gmv_sip_runtime_respond_invite` -/
def respondInvite (alloc : Alloc) (started : Bool) (response : InviteResponse) :
    Except Refusal InviteResponseCommand := do
  require (80 ≤ response.size ∧ response.version = abiVersion ∧ 200 ≤ response.statusCode ∧
    response.statusCode ≤ 699 ∧ StringView.isSet response.callId ∧ started) .einval
  require alloc.calloc .enomem
  let callId ← copyText callIdCapacity response.callId
  let reason ← copyText 128 response.reason
  let contentType ← copyText contentTypeCapacity response.contentType
  let body ← copyBody alloc.malloc response.body
  require (¬(response.statusCode < 300 ∧ (contentType = [] ∨ body = []))) .einval
  return ⟨response.statusCode, callId, reason, contentType, body⟩

/-- A SUBSCRIBE without a Call-ID starts a subscription; one with a Call-ID refreshes it.
Source: `shim.c`, `gmv_sip_runtime_send_subscribe` -/
def sendSubscribe (pj : Pjsip) (alloc : Alloc) (started : Bool) (subscribe : OutboundSubscribe) :
    Except Refusal SubscribeCommand := do
  require (152 ≤ subscribe.size ∧ subscribe.version = abiVersion ∧ subscribe.operationId ≠ 0 ∧
    (subscribe.callId.len = 0 → validCseq subscribe.localCseq ∧
      StringView.isSet subscribe.targetUri ∧ StringView.isSet subscribe.fromUri ∧
      StringView.isSet subscribe.contactUri ∧ subscribe.expires ≠ 0) ∧
    hasRoute subscribe.transport subscribe.associationId ∧ StringView.isSet subscribe.event ∧
    (0 < subscribe.body.len → StringView.isSet subscribe.body ∧
      StringView.isSet subscribe.contentType) ∧
    subscribe.body.len ≤ pj.maxPktLen ∧ started) .einval
  require alloc.calloc .enomem
  let targetUri ← copyText uriCapacity subscribe.targetUri
  let fromUri ← copyText uriCapacity subscribe.fromUri
  let contactUri ← copyText uriCapacity subscribe.contactUri
  let callId ← copyText callIdCapacity subscribe.callId
  let event ← copyText contentTypeCapacity subscribe.event
  let contentType ← copyText contentTypeCapacity subscribe.contentType
  let body ← copyBody alloc.malloc subscribe.body
  return ⟨subscribe.operationId, subscribe.associationId, subscribe.transport, subscribe.localCseq,
    targetUri, fromUri, contactUri, callId, event, subscribe.expires, contentType, body⟩

/-- Source: `shim.c`, `gmv_sip_runtime_complete_auth_lookup` -/
def completeAuthLookup (pj : Pjsip) (alloc : Alloc) (started : Bool)
    (completion : AuthLookupCompletion) : Except Refusal AuthCommand :=
  if !started then .error (.status .einval)
  else (authCommand pj alloc.calloc completion).mapError .status

/-! ## Submissions -/

/-- A command, as its handler gets it. -/
inductive Command
  | auth (command : AuthCommand)
  | receive (command : ReceiveCommand)
  | completion (command : SendCompletionCommand)
  | close (command : CloseCommand)
  | message (command : MessageCommand)
  | invite (command : InviteCommand)
  | dialog (command : DialogCommand)
  | inviteResponse (command : InviteResponseCommand)
  | subscribe (command : SubscribeCommand)
  deriving DecidableEq, Repr

/-- A call of one of the ten functions. -/
inductive Submission
  | completeAuthLookup (completion : AuthLookupCompletion)
  | receivePacket (packet : ReceivedPacket)
  | completeSend (completion : SendCompletion)
  | closeTransport (associationId : ℕ) (transport : SipTransport) (status : PjStatus)
  | sendMessage (message : OutboundMessage)
  | sendInvite (invite : OutboundInvite)
  | sendDialogRequest (request : DialogRequest)
  | sendRestoredDialogRequest (request : RestoredDialogRequest)
  | respondInvite (response : InviteResponse)
  | sendSubscribe (subscribe : OutboundSubscribe)
  deriving DecidableEq, Repr

/-- The command a submission is queued as. -/
def Submission.command (pj : Pjsip) (alloc : Alloc) (started : Bool) :
    Submission → Except Refusal Command
  | .completeAuthLookup completion =>
    .auth <$> Commands.completeAuthLookup pj alloc started completion
  | .receivePacket packet => .receive <$> Commands.receivePacket pj alloc started packet
  | .completeSend completion => .completion <$> Commands.completeSend alloc started completion
  | .closeTransport associationId transport status =>
    .close <$> Commands.closeTransport alloc started associationId transport status
  | .sendMessage message => .message <$> Commands.sendMessage alloc started message
  | .sendInvite invite => .invite <$> Commands.sendInvite pj alloc started invite
  | .sendDialogRequest request => .dialog <$> Commands.sendDialogRequest pj alloc started request
  | .sendRestoredDialogRequest request =>
    .dialog <$> Commands.sendRestoredDialogRequest pj alloc started request
  | .respondInvite response => .inviteResponse <$> Commands.respondInvite alloc started response
  | .sendSubscribe subscribe => .subscribe <$> Commands.sendSubscribe pj alloc started subscribe

/-- The texts a completion gives; they mean something only for a credential. -/
def givenCredential (completion : AuthLookupCompletion) (result : AuthResult) : AuthCommand :=
  let text (view : StringView) : Bytes := if result = .credential then viewText view else []
  ⟨completion.lookupId, result, completion.credentialType, completion.algorithmType,
    text completion.username, text completion.realm, text completion.secret⟩

/-- The field values a submission gives. A close without a status gives `PJSIP_ESHUTDOWN`, and a
completion whose result is out of range gives no command. -/
def Submission.asGiven : Submission → Option Command
  | .completeAuthLookup completion =>
    completion.result.map fun result => .auth (givenCredential completion result)
  | .receivePacket p => some (.receive ⟨p.associationId, p.transport, viewText p.localAddress,
      p.localPort, viewText p.remoteAddress, p.remotePort, viewText p.data⟩)
  | .completeSend c => some (.completion ⟨c.sendId, c.sentBytes⟩)
  | .closeTransport associationId transport status => some (.close ⟨associationId, transport,
      if status = .success then .eshutdown else status⟩)
  | .sendMessage m => some (.message ⟨m.operationId, m.associationId, m.transport, m.cseq,
      viewText m.targetUri, viewText m.toUri, viewText m.fromUri, viewText m.contentType,
      viewText m.body⟩)
  | .sendInvite i => some (.invite ⟨i.operationId, i.associationId, i.transport, i.localCseq,
      viewText i.callId, viewText i.localTag, viewText i.targetUri, viewText i.toUri,
      viewText i.fromUri, viewText i.contactUri, viewText i.subject, viewText i.sdp⟩)
  | .sendDialogRequest r => some (.dialog ⟨r.operationId, r.method, viewText r.callId,
      viewText r.contentType, viewText r.body, false, 0, .unknown, 0, 0, [], [], [], [], [], [],
      []⟩)
  | .sendRestoredDialogRequest r => some (.dialog ⟨r.operationId, r.method, viewText r.callId,
      viewText r.contentType, viewText r.body, true, r.associationId, r.transport, r.localCseq,
      r.remotePort, viewText r.localUri, viewText r.remoteUri, viewText r.localTag,
      viewText r.remoteTag, viewText r.remoteTarget, viewText r.routeSet,
      viewText r.remoteAddress⟩)
  | .respondInvite r => some (.inviteResponse ⟨r.statusCode, viewText r.callId, viewText r.reason,
      viewText r.contentType, viewText r.body⟩)
  | .sendSubscribe s => some (.subscribe ⟨s.operationId, s.associationId, s.transport,
      s.localCseq, viewText s.targetUri, viewText s.fromUri, viewText s.contactUri,
      viewText s.callId, viewText s.event, s.expires, viewText s.contentType, viewText s.body⟩)

/-- The texts of a credential that is accepted are the ones given. -/
theorem copyCredential_eq_viewText {completion : AuthLookupCompletion} {username realm secret : Bytes}
    (h : copyCredential completion = some (username, realm, secret)) :
    username = viewText completion.username ∧ realm = viewText completion.realm ∧
      secret = viewText completion.secret := by
  simp only [copyCredential, bind, Option.bind_eq_some_iff] at h
  obtain ⟨username', husername, realm', hrealm, secret', hsecret, h⟩ := h
  split_ifs at h
  obtain ⟨rfl, rfl, rfl⟩ := Option.some.inj h
  exact ⟨copyView_eq_viewText husername, copyView_eq_viewText hrealm, copyView_eq_viewText hsecret⟩

/-- An accepted completion gives a result, and is queued with it. -/
theorem authCommand_asGiven {callocOk : Bool} {completion : AuthLookupCompletion}
    {command : AuthCommand} (h : authCommand pj callocOk completion = .ok command) :
    ∃ result, completion.result = some result ∧ command = givenCredential completion result := by
  unfold authCommand at h
  cases hresult : completion.result with
  | none => simp [hresult] at h
  | some result =>
    refine ⟨result, rfl, ?_⟩
    simp only [hresult] at h
    by_cases hkind : result = .credential
    · rw [if_neg (not_not.mpr hkind)] at h
      cases hcopy : copyCredential completion with
      | none =>
        simp only [hcopy] at h
        split_ifs at h
      | some texts =>
        obtain ⟨username, realm, secret⟩ := texts
        obtain ⟨rfl, rfl, rfl⟩ := copyCredential_eq_viewText hcopy
        simp only [hcopy] at h
        split_ifs at h
        rw [← Except.ok.inj h]
        simp [givenCredential, hkind]
    · rw [if_pos hkind] at h
      split_ifs at h
      rw [← Except.ok.inj h]
      simp [givenCredential, hkind]

/-- **A command that is queued has the field values given.** -/
theorem Submission.command_asGiven {alloc : Alloc} {started : Bool} {call : Submission}
    {command : Command} (h : call.command pj alloc started = .ok command) :
    call.asGiven = some command := by
  cases call with
  | completeAuthLookup completion =>
    simp only [Submission.command, map_eq_ok, Commands.completeAuthLookup] at h
    obtain ⟨auth, h, rfl⟩ := h
    split_ifs at h
    have hauth : authCommand pj alloc.calloc completion = .ok auth := by
      cases hcall : authCommand pj alloc.calloc completion with
      | error status => simp [hcall, Except.mapError] at h
      | ok command => simpa [hcall, Except.mapError] using h
    obtain ⟨result, hresult, rfl⟩ := authCommand_asGiven hauth
    simp [Submission.asGiven, hresult]
  | receivePacket =>
    simp only [Submission.command, map_eq_ok, Commands.receivePacket, bind_eq_ok,
      require_eq_ok, pure_eq_ok] at h
    obtain ⟨-, ⟨-, -, -, -, _, hlocal, _, hremote, _, hdata, rfl⟩, rfl⟩ := h
    obtain rfl := copyAddress_eq_viewText hlocal
    obtain rfl := copyAddress_eq_viewText hremote
    obtain rfl := copyBody_eq_viewText hdata
    rfl
  | completeSend =>
    simp only [Submission.command, map_eq_ok, Commands.completeSend, bind_eq_ok, require_eq_ok,
      pure_eq_ok] at h
    obtain ⟨-, ⟨-, -, -, -, rfl⟩, rfl⟩ := h
    rfl
  | closeTransport =>
    simp only [Submission.command, map_eq_ok, Commands.closeTransport, bind_eq_ok,
      require_eq_ok, pure_eq_ok] at h
    obtain ⟨-, ⟨-, -, -, -, rfl⟩, rfl⟩ := h
    rfl
  | sendMessage =>
    simp only [Submission.command, map_eq_ok, Commands.sendMessage, bind_eq_ok, require_eq_ok,
      pure_eq_ok] at h
    obtain ⟨-, ⟨-, -, -, -, _, htarget, _, hto, _, hfrom, _, htype, _, hbody, rfl⟩, rfl⟩ := h
    obtain rfl := copyText_eq_viewText htarget
    obtain rfl := copyText_eq_viewText hto
    obtain rfl := copyText_eq_viewText hfrom
    obtain rfl := copyText_eq_viewText htype
    obtain rfl := copyBody_eq_viewText hbody
    rfl
  | sendInvite =>
    simp only [Submission.command, map_eq_ok, Commands.sendInvite, bind_eq_ok, require_eq_ok,
      pure_eq_ok] at h
    obtain ⟨-, ⟨-, -, -, -, _, hcall, _, htag, _, htarget, _, hto, _, hfrom, _, hcontact, _,
      hsubject, _, hsdp, rfl⟩, rfl⟩ := h
    obtain rfl := copyText_eq_viewText hcall
    obtain rfl := copyText_eq_viewText htag
    obtain rfl := copyText_eq_viewText htarget
    obtain rfl := copyText_eq_viewText hto
    obtain rfl := copyText_eq_viewText hfrom
    obtain rfl := copyText_eq_viewText hcontact
    obtain rfl := copyText_eq_viewText hsubject
    obtain rfl := copyBody_eq_viewText hsdp
    rfl
  | sendDialogRequest =>
    simp only [Submission.command, map_eq_ok, Commands.sendDialogRequest, bind_eq_ok,
      require_eq_ok, pure_eq_ok] at h
    obtain ⟨-, ⟨-, -, -, -, _, hcall, _, htype, _, hbody, rfl⟩, rfl⟩ := h
    obtain rfl := copyText_eq_viewText hcall
    obtain rfl := copyText_eq_viewText htype
    obtain rfl := copyBody_eq_viewText hbody
    rfl
  | sendRestoredDialogRequest =>
    simp only [Submission.command, map_eq_ok, Commands.sendRestoredDialogRequest, bind_eq_ok,
      require_eq_ok, pure_eq_ok] at h
    obtain ⟨-, ⟨-, -, -, -, _, hcall, _, hlocal, _, hremote, _, hltag, _, hrtag, _, htarget, _,
      hroute, _, haddress, _, htype, _, hbody, rfl⟩, rfl⟩ := h
    obtain rfl := copyText_eq_viewText hcall
    obtain rfl := copyText_eq_viewText hlocal
    obtain rfl := copyText_eq_viewText hremote
    obtain rfl := copyText_eq_viewText hltag
    obtain rfl := copyText_eq_viewText hrtag
    obtain rfl := copyText_eq_viewText htarget
    obtain rfl := copyText_eq_viewText hroute
    obtain rfl := copyText_eq_viewText haddress
    obtain rfl := copyText_eq_viewText htype
    obtain rfl := copyBody_eq_viewText hbody
    rfl
  | respondInvite =>
    simp only [Submission.command, map_eq_ok, Commands.respondInvite, bind_eq_ok, require_eq_ok,
      pure_eq_ok] at h
    obtain ⟨-, ⟨-, -, -, -, _, hcall, _, hreason, _, htype, _, hbody, -, -, rfl⟩, rfl⟩ := h
    obtain rfl := copyText_eq_viewText hcall
    obtain rfl := copyText_eq_viewText hreason
    obtain rfl := copyText_eq_viewText htype
    obtain rfl := copyBody_eq_viewText hbody
    rfl
  | sendSubscribe =>
    simp only [Submission.command, map_eq_ok, Commands.sendSubscribe, bind_eq_ok, require_eq_ok,
      pure_eq_ok] at h
    obtain ⟨-, ⟨-, -, -, -, _, htarget, _, hfrom, _, hcontact, _, hcall, _, hevent, _, htype, _,
      hbody, rfl⟩, rfl⟩ := h
    obtain rfl := copyText_eq_viewText htarget
    obtain rfl := copyText_eq_viewText hfrom
    obtain rfl := copyText_eq_viewText hcontact
    obtain rfl := copyText_eq_viewText hcall
    obtain rfl := copyText_eq_viewText hevent
    obtain rfl := copyText_eq_viewText htype
    obtain rfl := copyBody_eq_viewText hbody
    rfl

theorem require_false (status : PjStatus) : require false status = .error (.status status) := rfl

theorem error_bind {ε α β : Type} (e : ε) (f : α → Except ε β) :
    (Except.error e >>= f) = .error e := rfl

/-- A runtime that is not started refuses everything. -/
theorem Submission.command_not_started (pj : Pjsip) (alloc : Alloc) (call : Submission) :
    call.command pj alloc false = .error (.status .einval) := by
  cases call <;>
    simp only [Submission.command, Commands.completeAuthLookup, Commands.receivePacket,
      Commands.completeSend, Commands.closeTransport, Commands.sendMessage, Commands.sendInvite,
      Commands.sendDialogRequest, Commands.sendRestoredDialogRequest, Commands.respondInvite,
      Commands.sendSubscribe, Bool.false_eq_true, and_false, false_and, decide_false,
      require_false, error_bind, Bool.not_false, if_true] <;> rfl

theorem Submission.started_of_command {alloc : Alloc} {started : Bool} {call : Submission}
    {command : Command} (h : call.command pj alloc started = .ok command) :
    started = true := by
  cases started with
  | false =>
    rw [Submission.command_not_started] at h
    cases h
  | true => rfl

end GmvPjsip.Commands
