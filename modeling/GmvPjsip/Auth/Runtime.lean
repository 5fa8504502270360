import GmvPjsip.Auth.Nonce
import GmvPjsip.Auth.Sources

/-!
# REGISTER authentication in the runtime

The functions of `shim_auth.inc` that answer a REGISTER, queue it for a credential lookup and
resolve it, as functions on the state of a runtime.

* `Runtime` is the part of `gmv_sip_runtime` these functions use.
* What a function does outside the runtime is a list of `Action`s: nonces issued, responses,
  terminated transactions, events. One `respond` is one attempt of `gmv_send_response` with its
  result.
* What PJSIP, the allocator and the clock do is passed in as a record (`SendEnv`, `QueueEnv`,
  `RegisterEnv`, `CompleteEnv`), so that a theorem about all records is one about all behaviours.
* The runtime has an event callback, as the Rust wrapper installs one, and PJSIP pools do not run
  out.
-/

namespace GmvPjsip.Auth

open GmvPjsip.Lib

/-! ## State -/

/-- The `result` of a lookup completion. -/
inductive AuthResult
  | credential
  | bypass
  | reject
  | notFound
  deriving DecidableEq, Repr

/-- A `gmv_auth_command_t`. -/
structure AuthCommand where
  lookupId : ℕ
  result : AuthResult
  credentialType : Int
  algorithmType : Int
  username : Bytes
  realm : Bytes
  secret : Bytes
  deriving DecidableEq, Repr

/-- A `gmv_pending_auth_t`. Transactions are numbered in the order PJSIP creates them. -/
structure PendingAuth where
  lookupId : ℕ
  deviceId : Bytes
  realm : Bytes
  deadlineMs : ℕ
  packet : Bytes
  origin : Origin
  transaction : ℕ
  deriving DecidableEq, Repr

/-- `gmv_sip_event_type_t`. -/
inductive EventType
  | requestReceived
  | responseSent
  | runtimeFault
  | authLookupRequired
  | registered
  | authRejected
  | unregistered
  | outboundResponse
  | incomingInvite
  deriving DecidableEq, Repr

/-- The fields of a `gmv_sip_event_t` that identify a REGISTER and its outcome. -/
structure Event where
  eventType : EventType
  transport : SipTransport
  statusCode : ℕ
  pjStatus : PjStatus
  eventId : ℕ
  lookupId : ℕ
  deviceId : Bytes
  realm : Bytes
  associationId : ℕ
  callId : Bytes
  cseq : ℕ
  expiresSeconds : Int
  deriving DecidableEq, Repr

/-- The part of a `gmv_sip_runtime` that REGISTER handling uses. -/
structure Runtime where
  config : Config
  started : Bool
  lastStatus : PjStatus
  eventSequence : ℕ
  lookupSequence : ℕ
  nonceCleanupAtMs : ℕ
  pendingAuthCount : ℕ
  pendingAuth : List PendingAuth
  commands : List AuthCommand
  activeAuthCommand : Option AuthCommand
  authNonces : List AuthNonce
  registeredSources : List RegisteredSource
  registerOrders : List RegisterOrder
  deriving DecidableEq, Repr

/-- Something the runtime does that is seen outside it. -/
inductive Action
  /-- A nonce was put into the list, at a reading of the clock. -/
  | issued (value : Bytes) (now : ℕ)
  /-- One attempt of `gmv_send_response` and its result, on a transaction of its own or on the
  transaction of a queued REGISTER. -/
  | respond (transaction : Option ℕ) (code : ℕ) (challenge stale : Bool) (status : PjStatus)
  /-- `pjsip_tsx_terminate`. -/
  | terminate (transaction : ℕ) (code : ℕ)
  /-- The event callback. -/
  | emit (event : Event)
  deriving DecidableEq, Repr

/-! ## Events -/

/-- Number an event and hand it to the callback.
Source: `shim.c`, `gmv_emit_event_ex` -/
def emitEvent (rt : Runtime) (event : Event) : Runtime × Action :=
  let eventId := u64 (rt.eventSequence + 1)
  ({ rt with eventSequence := eventId }, .emit { event with eventId := eventId })

/-- What `gmv_emit_event_ex` reads off a REGISTER. -/
def registerEvent (eventType : EventType) (statusCode : ℕ) (pjStatus : PjStatus) (rx : RxData)
    (lookupId : ℕ) (deviceId realm : Bytes) : Event where
  eventType := eventType
  transport := rx.origin.transport
  statusCode := statusCode
  pjStatus := pjStatus
  eventId := 0
  lookupId := lookupId
  deviceId := deviceId
  realm := realm
  associationId := rx.origin.associationId
  callId := rx.msg.callId.getD []
  cseq := (rx.msg.cseq.getD 0).toNat
  expiresSeconds := registerExpires rx.msg

/-- Source: `shim_auth.inc`, `gmv_emit_auth_event` -/
def emitAuthEvent (rt : Runtime) (eventType : EventType) (statusCode : ℕ) (pjStatus : PjStatus)
    (p : PendingAuth) (rx : RxData) : Runtime × Action :=
  emitEvent rt (registerEvent eventType statusCode pjStatus rx p.lookupId p.deviceId p.realm)

/-! ## Responses -/

/-- What `gmv_send_response` meets outside the shim. -/
structure SendEnv where
  /-- `pjsip_endpt_create_response`. -/
  createResponse : PjStatus
  /-- The allocation of a nonce. -/
  nonceCalloc : Bool
  /-- `pj_create_random_string`. -/
  randomString : Bytes
  /-- `gmv_now_ms` when a nonce is issued. -/
  now : ℕ
  /-- `pjsip_auth_srv_challenge2`. -/
  challenge : PjStatus
  /-- `pjsip_tsx_create_uas`. -/
  createUas : PjStatus
  /-- `pjsip_tsx_send_msg`. -/
  sendMsg : PjStatus
  deriving DecidableEq, Repr

/-- How sending a response ends, on a transaction that is there or on a new one. -/
def SendEnv.deliver (env : SendEnv) (transaction : Option ℕ) : PjStatus :=
  if transaction = none ∧ env.createUas ≠ .success then env.createUas else env.sendMsg

/-- Create a response, add a challenge if asked to, and send it.
Source: `shim_auth.inc`, `gmv_send_response` -/
def sendResponse (env : SendEnv) (rt : Runtime) (transaction : Option ℕ) (code : ℕ)
    (challenge stale : Bool) : PjStatus × Runtime × List Action :=
  let attempt := Action.respond transaction code challenge stale
  let send := env.deliver transaction
  if env.createResponse ≠ .success then (env.createResponse, rt, [attempt env.createResponse])
  else if !challenge then (send, rt, [attempt send])
  else if !env.nonceCalloc then (.enomem, rt, [attempt .enomem])
  else
    let rt' := { rt with authNonces := issueNonce env.randomString env.now :: rt.authNonces }
    let issued := Action.issued env.randomString env.now
    if env.challenge ≠ .success then (env.challenge, rt', [issued, attempt env.challenge])
    else (send, rt', [issued, attempt send])

/-! ## Arrival -/

/-- What `gmv_queue_register_lookup` meets outside the shim. -/
structure QueueEnv where
  callocOk : Bool
  mallocOk : Bool
  /-- `pjsip_transport_add_ref`. -/
  addRef : PjStatus
  /-- `pjsip_tsx_create_uas`. -/
  createUas : PjStatus
  /-- `pj_grp_lock_add_ref`. -/
  grpLockAddRef : PjStatus
  /-- `gmv_now_ms`. -/
  now : ℕ
  deriving DecidableEq, Repr

/-- The id of the lookup under way for a device and a realm, or 0. -/
def existingLookup (pending : List PendingAuth) (deviceId realm : Bytes) : ℕ :=
  match pending.find? fun entry => entry.deviceId = deviceId ∧ entry.realm = realm with
  | some entry => entry.lookupId
  | none => 0

/-- Queue a REGISTER for a credential lookup. It joins the lookup under way for its device and
realm, or announces a new one. `transaction` is the number of the transaction PJSIP would create.
Source: `shim_auth.inc`, `gmv_queue_register_lookup` -/
def queueRegisterLookup (pj : Pjsip) (env : QueueEnv) (rt : Runtime) (transaction : ℕ)
    (rx : RxData) (deviceId realm : Bytes) :
    PjStatus × Runtime × Option PendingAuth × List Action :=
  if rt.config.maxPendingAuth ≤ rt.pendingAuthCount then (.etoomany, rt, none, [])
  else
    let lookupId := existingLookup rt.pendingAuth deviceId realm
    if !env.callocOk then (.enomem, rt, none, [])
    else match copyView deviceIdCapacity (.bytes deviceId), copyView 128 (.bytes realm) with
      | some deviceId, some realm =>
        if rx.packet.length = 0 ∨ pj.maxPktLen < rx.packet.length then (.einval, rt, none, [])
        else if !env.mallocOk then (.enomem, rt, none, [])
        else if env.addRef ≠ .success then (env.addRef, rt, none, [])
        else if env.createUas ≠ .success then (env.createUas, rt, none, [])
        else if env.grpLockAddRef ≠ .success then
          (env.grpLockAddRef, rt, none, [.terminate transaction 500])
        else
          let lookupSequence :=
            if lookupId ≠ 0 then rt.lookupSequence else u64 (rt.lookupSequence + 1)
          let pending : PendingAuth := {
            lookupId := if lookupId ≠ 0 then lookupId else lookupSequence
            deviceId := deviceId
            realm := realm
            deadlineMs := u64 (env.now + rt.config.authLookupTimeoutMs)
            packet := rx.packet
            origin := rx.origin
            transaction := transaction }
          let rt' := { rt with
            lookupSequence := lookupSequence
            pendingAuth := pending :: rt.pendingAuth
            pendingAuthCount := rt.pendingAuthCount + 1 }
          if lookupId ≠ 0 then (.success, rt', some pending, [])
          else
            let (rt'', event) := emitAuthEvent rt' .authLookupRequired 0 .success pending rx
            (.success, rt'', some pending, [event])
      | _, _ => (.etoosmall, rt, none, [])

/-- What `gmv_handle_register` meets outside the shim. -/
structure RegisterEnv where
  /-- `gmv_now_ms` when the nonce is looked up. -/
  now : ℕ
  queue : QueueEnv
  send : SendEnv
  deriving DecidableEq, Repr

/-- Answer a REGISTER on a transaction of its own. -/
def answerRegister (env : RegisterEnv) (rt : Runtime) (code : ℕ) (challenge stale : Bool) :
    Runtime × Option PendingAuth × List Action :=
  let (status, rt', actions) := sendResponse env.send rt none code challenge stale
  ({ rt' with lastStatus := status }, none, actions)

/-- Queue a REGISTER that passed the checks, or answer that it cannot be queued. -/
def queueOrAnswer (pj : Pjsip) (env : RegisterEnv) (rt : Runtime) (transaction : ℕ)
    (rx : RxData) (deviceId realm : Bytes) : Runtime × Option PendingAuth × List Action :=
  let (status, rt', queued, actions) :=
    queueRegisterLookup pj env.queue rt transaction rx deviceId realm
  if status = .success then (rt', queued, actions)
  else
    let code := if status = .etoomany then 503 else 500
    let (responseStatus, rt'', attempt) := sendResponse env.send rt' none code false false
    let lastStatus := if responseStatus = .success then status else responseStatus
    ({ rt'' with lastStatus := lastStatus }, none, actions ++ attempt)

/-- Check a REGISTER and queue it.
Source: `shim_auth.inc`, `gmv_handle_register` -/
def handleRegister (pj : Pjsip) (env : RegisterEnv) (rt : Runtime) (transaction : ℕ)
    (rx : RxData) : Runtime × Option PendingAuth × List Action :=
  let deviceId := registerDeviceId rx.msg
  if deviceId.length = 0 ∨ deviceIdCapacity ≤ deviceId.length then
    answerRegister env rt 400 false false
  else match authHeader rx.msg with
    | none => queueOrAnswer pj env rt transaction rx deviceId rt.config.authRealm
    | some auth =>
      if !stricmp auth.scheme (ascii "Digest") then answerRegister env rt 401 true false
      else if auth.digest.realm ≠ rt.config.authRealm then answerRegister env rt 403 false false
      else if !authorizationShapeValid pj rt.config rx.msg auth then
        answerRegister env rt 403 false false
      else
        let (status, nonces) := nonceStatus env.now (some auth.digest.nonce) false rt.authNonces
        let rt' := { rt with authNonces := nonces }
        if status ≠ .valid then answerRegister env rt' 401 true (decide (status = .expired))
        else queueOrAnswer pj env rt' transaction rx deviceId auth.digest.realm

/-! ## Completion -/

/-- What `gmv_complete_pending_auth` meets outside the shim. -/
structure CompleteEnv where
  /-- `gmv_now_ms` when the use of a nonce is recorded. -/
  now : ℕ
  /-- The allocation of a usage record. -/
  usageCalloc : Bool
  /-- The allocation of an order. -/
  orderCalloc : Bool
  send : SendEnv
  deriving DecidableEq, Repr

/-- The lookup callback of the authentication server.
Source: `shim.c`, `gmv_auth_lookup` -/
def authLookup (activeAuthCommand : Option AuthCommand) : AuthLookup := fun accName realm =>
  match activeAuthCommand with
  | none => .error .eauthaccnotfound
  | some command =>
    if command.result ≠ .credential ∨ accName ≠ command.username ∨ realm ≠ command.realm then
      .error .eauthaccnotfound
    else .ok {
      realm := command.realm
      scheme := ascii "digest"
      username := command.username
      dataType := command.credentialType
      data := command.secret
      algorithmType := command.algorithmType }

/-- Parse the packet of a queued REGISTER again.
Source: `shim_auth.inc`, `gmv_rebuild_pending_rdata` -/
def rebuildPendingRdata (pj : Pjsip) (p : PendingAuth) : Option RxData :=
  if p.packet.length = 0 ∨ pj.maxPktLen < p.packet.length then none
  else (pj.parseRdata p.packet).map fun msg => ⟨p.origin, p.packet, msg⟩

/-- What the credentials say about a REGISTER: the code, whether to challenge, the status. -/
structure Verdict where
  code : ℕ
  challenge : Bool
  authStatus : PjStatus
  deriving DecidableEq, Repr

/-- Judge a REGISTER by a lookup completion.
Source: `shim_auth.inc`, `gmv_complete_pending_auth` -/
def judge (pj : Pjsip) (env : CompleteEnv) (rt : Runtime) (msg : SipMsg) (command : AuthCommand) :
    Verdict × Runtime :=
  match command.result with
  | .bypass => (⟨200, false, .success⟩, rt)
  | .credential =>
    match authHeader msg with
    | none => (⟨401, true, .success⟩, rt)
    | some auth =>
      let rt₁ := { rt with activeAuthCommand := some command }
      let (status, code) :=
        pj.authSrvVerify (authLookup rt₁.activeAuthCommand) rt₁.config.authRealm msg
      let rt₂ := { rt₁ with activeAuthCommand := none }
      if status ≠ .success then (⟨code, false, status⟩, rt₂)
      else
        let (used, nonces) :=
          commitNonceUsage env.now env.usageCalloc auth.digest rt₂.authNonces
        let rt₃ := { rt₂ with authNonces := nonces }
        if used then (⟨code, false, status⟩, rt₃)
        else (⟨403, false, .eauthinvaliddigest⟩, rt₃)
  | _ => (⟨403, false, .success⟩, rt)

/-- The events and the order behind a response.
Source: `shim_auth.inc`, `gmv_complete_pending_auth` -/
def reportCompletion (env : CompleteEnv) (rt : Runtime) (p : PendingAuth) (rx : RxData)
    (code : ℕ) (authStatus sendStatus : PjStatus) : Runtime × List Action :=
  if sendStatus ≠ .success then
    let (rt, fault) := emitAuthEvent rt .runtimeFault code sendStatus p rx
    (rt, [fault])
  else
    let (rt, sent) := emitAuthEvent rt .responseSent code authStatus p rx
    if code = 200 then
      let orders := commitRegisterOrder env.orderCalloc rt.registerOrders p.deviceId rx.msg
      let eventType :=
        if registerExpires rx.msg = 0 then EventType.unregistered else EventType.registered
      let (rt, outcome) :=
        emitAuthEvent { rt with registerOrders := orders } eventType code .success p rx
      (rt, [sent, outcome])
    else if code ≠ 401 then
      let (rt, outcome) := emitAuthEvent rt .authRejected code authStatus p rx
      (rt, [sent, outcome])
    else (rt, [sent])

/-- The code a REGISTER is answered with: 500 in place of 200 where it was overtaken. -/
def answerCode (orders : List RegisterOrder) (p : PendingAuth) (msg : SipMsg) (code : ℕ) : ℕ :=
  if code = 200 ∧ registerOrderIsStale orders p.deviceId msg = true then 500 else code

/-- Resolve a queued REGISTER by a lookup completion.
Source: `shim_auth.inc`, `gmv_complete_pending_auth` -/
def completePendingAuth (pj : Pjsip) (env : CompleteEnv) (rt : Runtime) (p : PendingAuth)
    (command : AuthCommand) : Runtime × List Action :=
  match rebuildPendingRdata pj p with
  | none => ({ rt with lastStatus := .einvalidmsg }, [.terminate p.transaction 500])
  | some rx =>
    let (verdict, rt₁) := judge pj env rt rx.msg command
    let code := answerCode rt₁.registerOrders p rx.msg verdict.code
    let (sendStatus, rt₂, attempt) :=
      sendResponse env.send rt₁ (some p.transaction) code verdict.challenge false
    let (rt₃, events) := reportCompletion env { rt₂ with lastStatus := sendStatus } p rx code
      verdict.authStatus sendStatus
    (rt₃, attempt ++ events)

/-- Resolve a queued REGISTER whose lookup took too long.
Source: `shim_auth.inc`, `gmv_process_auth_timeouts` -/
def expirePendingAuth (pj : Pjsip) (env : SendEnv) (rt : Runtime) (p : PendingAuth) :
    Runtime × List Action :=
  match rebuildPendingRdata pj p with
  | none => (rt, [.terminate p.transaction 500])
  | some rx =>
    let (status, rt₁, attempt) := sendResponse env rt (some p.transaction) 504 false false
    let eventType :=
      if status = .success then EventType.authRejected else EventType.runtimeFault
    let (rt₂, event) := emitAuthEvent rt₁ eventType 504 status p rx
    (rt₂, attempt ++ [event])

/-- A `gmv_sip_auth_lookup_completion_t`. The `result` is `none` where the number is out of
range. -/
structure AuthLookupCompletion where
  size : ℕ
  version : ℕ
  lookupId : ℕ
  result : Option AuthResult
  credentialType : Int
  algorithmType : Int
  username : StringView
  realm : StringView
  secret : StringView
  deriving DecidableEq, Repr

/-- `sizeof(gmv_sip_auth_lookup_completion_t)`. -/
def completionSize : ℕ := 80

/-- The texts of a credential, if they fit and none is empty. -/
def copyCredential (completion : AuthLookupCompletion) : Option (Bytes × Bytes × Bytes) := do
  let username ← copyView deviceIdCapacity completion.username
  let realm ← copyView 128 completion.realm
  let secret ← copyView 512 completion.secret
  if username = [] ∨ realm = [] ∨ secret = [] then none else some (username, realm, secret)

/-- The command a completion is queued as.
Source: `shim.c`, `gmv_sip_runtime_complete_auth_lookup` -/
def authCommand (pj : Pjsip) (callocOk : Bool) (completion : AuthLookupCompletion) :
    Except PjStatus AuthCommand :=
  if completion.size < completionSize ∨ completion.version ≠ abiVersion ∨
      completion.lookupId = 0 then .error .einval
  else match completion.result with
    | none => .error .einval
    | some result =>
      if !callocOk then .error .enomem
      else if result ≠ .credential then
        .ok ⟨completion.lookupId, result, completion.credentialType, completion.algorithmType,
          [], [], []⟩
      else match copyCredential completion with
        | none => .error .einval
        | some (username, realm, secret) =>
          if !pj.algorithmSupported completion.algorithmType then .error .einval
          else .ok ⟨completion.lookupId, result, completion.credentialType,
            completion.algorithmType, username, realm, secret⟩

/-- Queue a lookup completion for the next poll.
Source: `shim.c`, `gmv_sip_runtime_complete_auth_lookup` -/
def completeAuthLookup (pj : Pjsip) (callocOk : Bool) (rt : Runtime)
    (completion : AuthLookupCompletion) : PjStatus × Runtime :=
  if !rt.started then (.einval, rt)
  else match authCommand pj callocOk completion with
    | .error status => (status, rt)
    | .ok command => (.success, { rt with commands := rt.commands ++ [command] })

end GmvPjsip.Auth
