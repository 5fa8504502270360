import GmvPjsip.Auth.Machine

/-!
# What the functions of the runtime do

One lemma per function of `Auth.Runtime`, in terms of the `Core` of a runtime: the queue with its
counter, the nonces, the sources, the orders and the sequence of lookup ids. Later modules use these
lemmas and do not look into the functions again.

* `sendResponse_spec`: a response puts at most one nonce into the core and is one `respond`.
* `queueRegisterLookup_spec`: a REGISTER that is refused leaves the runtime as it was, and one that is
  queued is put in front with the id of its lookup.
* `handleRegister_spec`: a REGISTER is answered with a code other than 200, or `Admitted` to the
  queue.
* `judge_spec`: when the credentials of a completion call for 200.
* `completePendingAuth_spec`, `expirePendingAuth_spec`: what leaving the queue does.
-/

namespace GmvPjsip.Auth

open GmvPjsip.Lib

/-! ## The core of a runtime -/

/-- The part of a runtime that decides about REGISTERs. -/
structure Core where
  config : Config
  started : Bool
  pending : List PendingAuth
  count : ℕ
  nonces : List AuthNonce
  sources : List RegisteredSource
  orders : List RegisterOrder
  lookups : ℕ

/-- The core of a runtime. -/
def Runtime.core (rt : Runtime) : Core where
  config := rt.config
  started := rt.started
  pending := rt.pendingAuth
  count := rt.pendingAuthCount
  nonces := rt.authNonces
  sources := rt.registeredSources
  orders := rt.registerOrders
  lookups := rt.lookupSequence

/-- The nonces that a list of actions put into the core. -/
def issuedBy (actions : List Action) : List AuthNonce :=
  actions.filterMap fun
    | .issued value now => some (issueNonce value now)
    | _ => none

theorem issuedBy_append (as bs : List Action) :
    issuedBy (as ++ bs) = issuedBy as ++ issuedBy bs := List.filterMap_append

/-! ## Events and responses -/

@[simp] theorem emitAuthEvent_core (rt : Runtime) (eventType : EventType) (code : ℕ)
    (status : PjStatus) (p : PendingAuth) (rx : RxData) :
    (emitAuthEvent rt eventType code status p rx).1.core = rt.core := rfl

/-- Emitting an event leaves the core as it was. -/
theorem emitAuthEvent_spec (rt : Runtime) (eventType : EventType) (code : ℕ) (status : PjStatus)
    (p : PendingAuth) (rx : RxData) :
    ∃ rt' event, emitAuthEvent rt eventType code status p rx = (rt', .emit event) ∧
      rt'.core = rt.core ∧ event.eventType = eventType :=
  ⟨_, _, rfl, rfl, rfl⟩

/-- A response is one `respond` behind at most one nonce, which it issues only for a challenge. -/
theorem sendResponse_spec (env : SendEnv) (rt : Runtime) (transaction : Option ℕ) (code : ℕ)
    (challenge stale : Bool) :
    ∃ status issue, sendResponse env rt transaction code challenge stale =
        (status, { rt with authNonces := issuedBy issue ++ rt.authNonces },
          issue ++ [.respond transaction code challenge stale status]) ∧
      (issue = [] ∨ (challenge = true ∧ issue = [.issued env.randomString env.now])) := by
  unfold sendResponse
  simp only
  split_ifs with hcreate hchallenge hcalloc hsrv
  · exact ⟨_, [], rfl, Or.inl rfl⟩
  · exact ⟨_, [], rfl, Or.inl rfl⟩
  · exact ⟨_, [], rfl, Or.inl rfl⟩
  · exact ⟨_, [.issued env.randomString env.now], rfl, Or.inr ⟨by simpa using hchallenge, rfl⟩⟩
  · exact ⟨_, [.issued env.randomString env.now], rfl, Or.inr ⟨by simpa using hchallenge, rfl⟩⟩

/-! ## Arrival -/

/-- The checks an Authorization header passes before its REGISTER is queued. -/
structure ArrivalChecks (pj : Pjsip) (config : Config) (msg : SipMsg) (auth : AuthorizationHdr) :
    Prop where
  scheme : stricmp auth.scheme (ascii "Digest") = true
  realm : auth.digest.realm = config.authRealm
  shape : authorizationShapeValid pj config msg auth = true

/-- What is known of an entry by the REGISTER it was queued for. -/
structure Admitted (pj : Pjsip) (config : Config) (rx : RxData) (p : PendingAuth) : Prop where
  packet : p.packet = rx.packet
  size : 0 < rx.packet.length ∧ rx.packet.length ≤ pj.maxPktLen
  origin : p.origin = rx.origin
  device : p.deviceId = registerDeviceId rx.msg
  deviceFits : p.deviceId.length < deviceIdCapacity ∧ 0 ∉ p.deviceId
  realm : p.realm = config.authRealm
  checks : ∀ auth, authHeader rx.msg = some auth → ArrivalChecks pj config rx.msg auth

/-- The ids of the lookups that a list of actions announced. -/
def announcedBy (actions : List Action) : List ℕ :=
  actions.filterMap fun
    | .emit event => if event.eventType = .authLookupRequired then some event.lookupId else none
    | _ => none

/-- The sequence of lookup ids after an entry, where `existing` is the lookup under way. -/
def nextLookups (existing lookups : ℕ) : ℕ := if existing ≠ 0 then lookups else u64 (lookups + 1)

/-- How an entry gets into the core: there is room, it takes the id of the lookup under way for its
device and realm or announces the next one, and it is put in front. -/
structure Enters (core : Core) (transaction : ℕ) (p : PendingAuth) (actions : List Action)
    (core' : Core) : Prop where
  room : core.count < core.config.maxPendingAuth
  transaction : p.transaction = transaction
  lookupId : p.lookupId =
    if existingLookup core.pending p.deviceId p.realm ≠ 0 then
      existingLookup core.pending p.deviceId p.realm
    else u64 (core.lookups + 1)
  core' : core' = { core with
    pending := p :: core.pending
    count := core.count + 1
    lookups := nextLookups (existingLookup core.pending p.deviceId p.realm) core.lookups }
  announced : announcedBy actions =
    if existingLookup core.pending p.deviceId p.realm ≠ 0 then [] else [p.lookupId]
  actions : ∀ action ∈ actions, ∃ event, action = .emit event ∧
    (event.eventType = .authLookupRequired ∨ event.eventType = .requestReceived)

/-- What an answer on a transaction of its own may do. -/
def Action.Quiet (transaction : ℕ) : Action → Prop
  | .issued .. => True
  | .respond t code _ _ _ => t = none ∧ code ≠ 200
  | .terminate t _ => t = transaction
  | .emit event => event.eventType = .requestReceived

theorem answerRegister_spec (env : RegisterEnv) (rt : Runtime) {code : ℕ}
    (challenge stale : Bool) (transaction : ℕ) (hcode : code ≠ 200) :
    ∃ rt' actions, answerRegister env rt code challenge stale = (rt', none, actions) ∧
      rt'.core = { rt.core with nonces := issuedBy actions ++ rt.authNonces } ∧
      ∀ action ∈ actions, action.Quiet transaction := by
  obtain ⟨status, issue, hsend, hissue⟩ :=
    sendResponse_spec env.send rt none code challenge stale
  unfold answerRegister
  simp only [hsend]
  refine ⟨_, _, rfl, ?_, ?_⟩
  · rw [issuedBy_append]
    simp [Runtime.core, issuedBy]
  · intro action hmem
    rcases hissue with rfl | ⟨-, rfl⟩
    · rw [List.nil_append, List.mem_singleton] at hmem
      subst hmem
      exact ⟨rfl, hcode⟩
    · rw [List.singleton_append, List.mem_pair] at hmem
      rcases hmem with rfl | rfl
      · trivial
      · exact ⟨rfl, hcode⟩

/-- Queueing either fails and leaves the runtime as it was, or enters an entry. -/
theorem queueRegisterLookup_spec (pj : Pjsip) (env : QueueEnv) (rt : Runtime) (transaction : ℕ)
    (rx : RxData) (deviceId realm : Bytes) :
    (∃ status actions, status ≠ .success ∧ queueRegisterLookup pj env rt transaction rx deviceId realm =
          (status, rt, none, actions) ∧
        (actions = [] ∨ actions = [.terminate transaction 500])) ∨
      ∃ p rt' actions, queueRegisterLookup pj env rt transaction rx deviceId realm =
          (.success, rt', some p, actions) ∧
        p.packet = rx.packet ∧ (0 < rx.packet.length ∧ rx.packet.length ≤ pj.maxPktLen) ∧
        p.origin = rx.origin ∧ p.deviceId = deviceId ∧ 0 ∉ deviceId ∧ p.realm = realm ∧
        Enters rt.core transaction p actions rt'.core := by
  unfold queueRegisterLookup
  by_cases hroom : rt.config.maxPendingAuth ≤ rt.pendingAuthCount
  · rw [if_pos hroom]
    exact Or.inl ⟨.etoomany, [], by simp, rfl, Or.inl rfl⟩
  rw [if_neg hroom]
  by_cases hcalloc : env.callocOk = true
  swap
  · simp only [hcalloc, Bool.not_false, if_true]
    exact Or.inl ⟨.enomem, [], by simp, rfl, Or.inl rfl⟩
  simp only [hcalloc, Bool.not_true, Bool.false_eq_true, if_false]
  rcases hdev : copyView deviceIdCapacity (.bytes deviceId) with _ | device
  · exact Or.inl ⟨.etoosmall, [], by simp, rfl, Or.inl rfl⟩
  rcases hrealm : copyView 128 (.bytes realm) with _ | realm'
  · exact Or.inl ⟨.etoosmall, [], by simp, rfl, Or.inl rfl⟩
  obtain ⟨rfl, -, hnul⟩ := copyView_bytes_eq_some hdev
  obtain rfl := (copyView_bytes_eq_some hrealm).1
  simp only
  by_cases hsize : rx.packet.length = 0 ∨ pj.maxPktLen < rx.packet.length
  · rw [if_pos hsize]
    exact Or.inl ⟨.einval, [], by simp, rfl, Or.inl rfl⟩
  rw [if_neg hsize]
  have hfits : 0 < rx.packet.length ∧ rx.packet.length ≤ pj.maxPktLen := by
    rw [not_or, Nat.not_lt] at hsize
    exact ⟨Nat.pos_of_ne_zero hsize.1, hsize.2⟩
  by_cases hmalloc : (!env.mallocOk) = true
  · rw [if_pos hmalloc]
    exact Or.inl ⟨.enomem, [], by simp, rfl, Or.inl rfl⟩
  rw [if_neg hmalloc]
  by_cases href : env.addRef ≠ .success
  · rw [if_pos href]
    exact Or.inl ⟨env.addRef, [], href, rfl, Or.inl rfl⟩
  rw [if_neg href]
  by_cases huas : env.createUas ≠ .success
  · rw [if_pos huas]
    exact Or.inl ⟨env.createUas, [], huas, rfl, Or.inl rfl⟩
  rw [if_neg huas]
  by_cases hlock : env.grpLockAddRef ≠ .success
  · rw [if_pos hlock]
    exact Or.inl ⟨env.grpLockAddRef, _, hlock, rfl, Or.inr rfl⟩
  rw [if_neg hlock]
  by_cases hold : existingLookup rt.pendingAuth device realm' ≠ 0
  · -- the entry joins the lookup under way
    simp only [if_pos hold]
    refine Or.inr ⟨_, _, _, rfl, rfl, hfits, rfl, rfl, hnul, rfl, ?_⟩
    constructor
    · exact Nat.not_le.mp hroom
    · rfl
    · exact (if_pos hold).symm
    · simp [Runtime.core, nextLookups, hold]
    · exact (if_pos hold).symm
    · intro action hmem
      cases hmem
  · -- a new lookup is announced
    simp only [if_neg hold]
    refine Or.inr ⟨_, _, _, rfl, rfl, hfits, rfl, rfl, hnul, rfl, ?_⟩
    constructor
    · exact Nat.not_le.mp hroom
    · rfl
    · exact (if_neg hold).symm
    · simp only [emitAuthEvent_core]
      simp [Runtime.core, nextLookups, hold]
    · exact (if_neg hold).symm
    · intro action hmem
      obtain rfl := List.mem_singleton.mp hmem
      exact ⟨_, rfl, Or.inl rfl⟩

/-- What arrival does: the REGISTER is answered on a transaction of its own, or it enters. -/
def Arrives (pj : Pjsip) (config : Config) (transaction : ℕ) (rx : RxData) (core : Core)
    (result : Runtime × Option PendingAuth × List Action) : Prop :=
  (∃ rt' actions, result = (rt', none, actions) ∧
      rt'.core = { core with nonces := issuedBy actions ++ core.nonces } ∧
      ∀ action ∈ actions, action.Quiet transaction) ∨
    ∃ rt' p actions, result = (rt', some p, actions) ∧ Admitted pj config rx p ∧
      Enters core transaction p actions rt'.core

theorem answerRegister_arrives (pj : Pjsip) (env : RegisterEnv) (rt : Runtime) {code : ℕ}
    (challenge stale : Bool) (transaction : ℕ) (rx : RxData) (hcode : code ≠ 200) :
    Arrives pj rt.config transaction rx rt.core (answerRegister env rt code challenge stale) := by
  obtain ⟨rt', actions, hanswer, hcore, hquiet⟩ :=
    answerRegister_spec env rt challenge stale transaction hcode
  exact Or.inl ⟨rt', actions, hanswer, hcore, hquiet⟩

theorem queueOrAnswer_arrives (pj : Pjsip) (env : RegisterEnv) (rt : Runtime) (transaction : ℕ)
    (rx : RxData) (hdevice : (registerDeviceId rx.msg).length < deviceIdCapacity)
    (hchecks : ∀ auth, authHeader rx.msg = some auth → ArrivalChecks pj rt.config rx.msg auth) :
    Arrives pj rt.config transaction rx rt.core
      (queueOrAnswer pj env rt transaction rx (registerDeviceId rx.msg) rt.config.authRealm) := by
  unfold queueOrAnswer
  rcases queueRegisterLookup_spec pj env.queue rt transaction rx (registerDeviceId rx.msg)
      rt.config.authRealm with
    ⟨status, actions, hfail, hqueue, hactions⟩ |
    ⟨p, rt', actions, hqueue, hpacket, hsize, horigin, hdev, hnul, hrealm, henters⟩
  · obtain ⟨status', issue, hsend, hissue⟩ := sendResponse_spec env.send rt none
      (if status = .etoomany then 503 else 500) false false
    obtain rfl : issue = [] := hissue.resolve_right fun h => Bool.noConfusion h.1
    simp only [hqueue, if_neg hfail, hsend]
    refine Or.inl ⟨_, _, rfl, ?_, ?_⟩
    · rcases hactions with rfl | rfl <;> rfl
    · intro action hmem
      rcases List.mem_append.mp hmem with hterm | hresp
      · rcases hactions with rfl | rfl
        · cases hterm
        · obtain rfl := List.mem_singleton.mp hterm
          rfl
      · obtain rfl := List.mem_singleton.mp hresp
        refine ⟨rfl, ?_⟩
        split <;> simp
  · simp only [hqueue, if_true]
    exact Or.inr ⟨rt', p, actions, rfl,
      ⟨hpacket, hsize, horigin, hdev, hdev ▸ ⟨hdevice, hnul⟩, hrealm, hchecks⟩, henters⟩

/-- **Arrival.** Some expired nonces go, and the REGISTER is answered or enters. -/
theorem handleRegister_spec (pj : Pjsip) (env : RegisterEnv) (rt : Runtime) (transaction : ℕ)
    (rx : RxData) :
    ∃ k, Arrives pj rt.config transaction rx
      { rt.core with nonces := purgeFront env.now k rt.authNonces }
      (handleRegister pj env rt transaction rx) := by
  unfold handleRegister
  simp only
  by_cases hdevice : (registerDeviceId rx.msg).length = 0 ∨
      deviceIdCapacity ≤ (registerDeviceId rx.msg).length
  · rw [if_pos hdevice]
    exact ⟨0, answerRegister_arrives pj env rt false false transaction rx (by simp)⟩
  rw [if_neg hdevice]
  have hfits := Nat.not_le.mp (not_or.mp hdevice).2
  rcases hauth : authHeader rx.msg with _ | auth
  · refine ⟨0, queueOrAnswer_arrives pj env rt transaction rx hfits ?_⟩
    intro auth h
    rw [hauth] at h
    cases h
  simp only
  by_cases hscheme : stricmp auth.scheme (ascii "Digest") = true
  swap
  · simp only [hscheme, Bool.not_false, if_true]
    exact ⟨0, answerRegister_arrives pj env rt true false transaction rx (by simp)⟩
  simp only [hscheme, Bool.not_true, Bool.false_eq_true, if_false]
  by_cases hrealm : auth.digest.realm = rt.config.authRealm
  swap
  · rw [if_pos hrealm]
    exact ⟨0, answerRegister_arrives pj env rt false false transaction rx (by simp)⟩
  rw [if_neg (not_not.mpr hrealm)]
  by_cases hshape : authorizationShapeValid pj rt.config rx.msg auth = true
  swap
  · simp only [hshape, Bool.not_false, if_true]
    exact ⟨0, answerRegister_arrives pj env rt false false transaction rx (by simp)⟩
  simp only [hshape, Bool.not_true, Bool.false_eq_true, if_false]
  obtain ⟨k, hpurge⟩ := nonceStatus_snd env.now (some auth.digest.nonce) false rt.authNonces
  refine ⟨k, ?_⟩
  rw [hpurge]
  split_ifs with hvalid
  · exact answerRegister_arrives pj env
      { rt with authNonces := purgeFront env.now k rt.authNonces } true _ transaction rx (by simp)
  · rw [hrealm]
    refine queueOrAnswer_arrives pj env
      { rt with authNonces := purgeFront env.now k rt.authNonces } transaction rx hfits ?_
    intro auth' h
    rw [hauth] at h
    obtain rfl := Option.some.inj h
    exact ⟨hscheme, hrealm, hshape⟩

/-! ## Completion -/

/-- The verification of a REGISTER by the credential of a completion. -/
def verifiedBy (pj : Pjsip) (config : Config) (msg : SipMsg) (command : AuthCommand) : PjStatus × ℕ :=
  pj.authSrvVerify (authLookup (some command)) config.authRealm msg

/-- A verified digest has its nonce used. -/
def UsesNonce (pj : Pjsip) (env : CompleteEnv) (core : Core) (msg : SipMsg)
    (command : AuthCommand) (used : Bool) (nonces : List AuthNonce) : Prop :=
  command.result = .credential ∧ (verifiedBy pj core.config msg command).1 = .success ∧
    ∃ auth, authHeader msg = some auth ∧
      commitNonceUsage env.now env.usageCalloc auth.digest core.nonces = (used, nonces)

/-- Judging a REGISTER changes nothing but the nonces, and these only by the use of the nonce of a
verified digest. The REGISTER is granted if that use is recorded, by a bypass, or if PJSIP reports
200 without success. -/
theorem judge_spec (pj : Pjsip) (env : CompleteEnv) (rt : Runtime) (msg : SipMsg)
    (command : AuthCommand) :
    ∃ verdict rt' nonces, judge pj env rt msg command = (verdict, rt') ∧
      rt'.core = { rt.core with nonces := nonces } ∧
      ((nonces = rt.authNonces ∧ (verdict.code = 200 → command.result = .bypass ∨
          ((verifiedBy pj rt.config msg command).1 ≠ .success ∧
            (verifiedBy pj rt.config msg command).2 = 200))) ∨
        ∃ used, UsesNonce pj env rt.core msg command used nonces ∧
          (verdict.code = 200 → used = true)) := by
  unfold judge
  rcases hresult : command.result with _ | _ | _ | _
  · -- a credential
    rcases hauth : authHeader msg with _ | auth
    · exact ⟨_, rt, rt.authNonces, rfl, rfl, Or.inl ⟨rfl, fun h => by simp at h⟩⟩
    · rcases hverify : verifiedBy pj rt.config msg command with ⟨status, code⟩
      have hsrv := hverify
      unfold verifiedBy at hsrv
      simp only [hsrv]
      by_cases hstatus : status = .success
      · rw [if_neg (not_not.mpr hstatus)]
        rcases hcommit : commitNonceUsage env.now env.usageCalloc auth.digest rt.authNonces with
          ⟨used, nonces⟩
        have huses : UsesNonce pj env rt.core msg command used nonces := by
          refine ⟨hresult, ?_, auth, hauth, hcommit⟩
          rw [show rt.core.config = rt.config from rfl, hverify]
          exact hstatus
        cases used with
        | true => exact ⟨_, _, nonces, rfl, rfl, Or.inr ⟨true, huses, fun _ => rfl⟩⟩
        | false => exact ⟨_, _, nonces, rfl, rfl, Or.inr ⟨false, huses, fun h => by simp at h⟩⟩
      · rw [if_pos hstatus]
        exact ⟨_, _, rt.authNonces, rfl, rfl, Or.inl ⟨rfl, fun h => Or.inr ⟨hstatus, h⟩⟩⟩
  · exact ⟨_, rt, rt.authNonces, rfl, rfl, Or.inl ⟨rfl, fun _ => Or.inl rfl⟩⟩
  · exact ⟨_, rt, rt.authNonces, rfl, rfl, Or.inl ⟨rfl, fun h => by simp at h⟩⟩
  · exact ⟨_, rt, rt.authNonces, rfl, rfl, Or.inl ⟨rfl, fun h => by simp at h⟩⟩

/-- An event that tells the application how a REGISTER ended. -/
def EventType.isOutcome : EventType → Bool
  | .registered => true
  | .unregistered => true
  | .authRejected => true
  | .runtimeFault => true
  | _ => false

/-- The action tells the application how a REGISTER ended. -/
def Action.isOutcome : Action → Bool
  | .emit event => event.eventType.isOutcome
  | _ => false

/-- The events behind a response. -/
structure Reports (code : ℕ) (events : List Action) : Prop where
  emits : ∀ action ∈ events, ∃ event, action = .emit event ∧ event.eventType ≠ .authLookupRequired
  once : events.countP Action.isOutcome ≤ 1
  ok : ∀ event, .emit event ∈ events →
    event.eventType = .registered ∨ event.eventType = .unregistered → code = 200

/-- The orders behind a response: a REGISTER that was answered 200 is noted. -/
def ordersAfter (env : CompleteEnv) (orders : List RegisterOrder) (p : PendingAuth) (msg : SipMsg)
    (code : ℕ) (status : PjStatus) : List RegisterOrder :=
  if status = .success ∧ code = 200 then
    commitRegisterOrder env.orderCalloc orders p.deviceId msg
  else orders

/-- One event. -/
theorem reports_one {code : ℕ} {event : Event} (hann : event.eventType ≠ .authLookupRequired)
    (hok : event.eventType = .registered ∨ event.eventType = .unregistered → code = 200) :
    Reports code [.emit event] := by
  constructor
  · intro action hmem
    exact ⟨event, List.mem_singleton.mp hmem, hann⟩
  · exact List.countP_le_length
  · intro event' hmem
    obtain rfl := Action.emit.inj (List.mem_singleton.mp hmem)
    exact hok

/-- The event that the response was sent, and one more. -/
theorem reports_two {code : ℕ} {sent event : Event} (hsent : sent.eventType = .responseSent)
    (hann : event.eventType ≠ .authLookupRequired)
    (hok : event.eventType = .registered ∨ event.eventType = .unregistered → code = 200) :
    Reports code [.emit sent, .emit event] := by
  have hone := reports_one hann hok
  constructor
  · intro action hmem
    rcases List.mem_cons.mp hmem with rfl | htail
    · exact ⟨sent, rfl, by simp [hsent]⟩
    · exact hone.emits action htail
  · have hskip : ¬ (Action.emit sent).isOutcome = true := by
      simp [Action.isOutcome, EventType.isOutcome, hsent]
    rw [List.countP_cons_of_neg hskip]
    exact hone.once
  · intro event' hmem htype
    rcases List.mem_cons.mp hmem with heq | htail
    · obtain rfl := Action.emit.inj heq
      simp [hsent] at htype
    · exact hone.ok event' htail htype

theorem reportCompletion_spec (env : CompleteEnv) (rt : Runtime) (p : PendingAuth) (rx : RxData)
    (code : ℕ) (authStatus sendStatus : PjStatus) :
    ∃ rt' events, reportCompletion env rt p rx code authStatus sendStatus = (rt', events) ∧
      rt'.core = { rt.core with
        orders := ordersAfter env rt.registerOrders p rx.msg code sendStatus } ∧
      Reports code events := by
  unfold reportCompletion ordersAfter
  by_cases hsend : sendStatus = .success
  swap
  · obtain ⟨rt₁, fault, hfault, hcore, htype⟩ :=
      emitAuthEvent_spec rt .runtimeFault code sendStatus p rx
    rw [if_pos hsend, if_neg fun h => hsend h.1]
    simp only [hfault]
    exact ⟨rt₁, _, rfl, hcore, reports_one (by simp [htype]) (by simp [htype])⟩
  obtain ⟨rt₁, sent, hsent, hcore, hstype⟩ :=
    emitAuthEvent_spec rt .responseSent code authStatus p rx
  have horders : rt₁.registerOrders = rt.registerOrders := congrArg Core.orders hcore
  rw [if_neg (not_not.mpr hsend)]
  simp only [hsent, hsend, true_and]
  by_cases hok : code = 200
  · obtain ⟨rt₂, event, hevent, hcore₂, htype⟩ := emitAuthEvent_spec
      { rt₁ with registerOrders :=
          commitRegisterOrder env.orderCalloc rt₁.registerOrders p.deviceId rx.msg }
      (if registerExpires rx.msg = 0 then .unregistered else .registered) code .success p rx
    simp only [if_pos hok, hevent]
    refine ⟨rt₂, _, rfl, ?_, reports_two hstype ?_ fun _ => hok⟩
    · rw [hcore₂, ← horders, ← hcore]
      rfl
    · rw [htype]
      split <;> simp
  · simp only [if_neg hok]
    by_cases hrej : code ≠ 401
    · obtain ⟨rt₂, event, hevent, hcore₂, htype⟩ :=
        emitAuthEvent_spec rt₁ .authRejected code authStatus p rx
      simp only [if_pos hrej, hevent]
      exact ⟨rt₂, _, rfl, hcore₂.trans hcore, reports_two hstype (by simp [htype]) (by simp [htype])⟩
    · simp only [if_neg hrej]
      exact ⟨rt₁, _, rfl, hcore, reports_one (by simp [hstype]) (by simp [hstype])⟩

/-- How judging may end: see `judge_spec`. -/
def Judged (pj : Pjsip) (env : CompleteEnv) (core : Core) (msg : SipMsg) (command : AuthCommand)
    (verdict : Verdict) (nonces : List AuthNonce) : Prop :=
  (nonces = core.nonces ∧ (verdict.code = 200 → command.result = .bypass ∨
      ((verifiedBy pj core.config msg command).1 ≠ .success ∧
        (verifiedBy pj core.config msg command).2 = 200))) ∨
    ∃ used, UsesNonce pj env core msg command used nonces ∧ (verdict.code = 200 → used = true)

/-- How a queued REGISTER that can be parsed again is resolved by a completion. -/
structure Completes (pj : Pjsip) (env : CompleteEnv) (core : Core) (p : PendingAuth)
    (command : AuthCommand) (rx : RxData) (verdict : Verdict) (nonces : List AuthNonce)
    (status : PjStatus) (core' : Core) (actions : List Action) : Prop where
  rebuilt : rebuildPendingRdata pj p = some rx
  judged : Judged pj env core rx.msg command verdict nonces
  core' : core' = { core with
    nonces := issuedBy actions ++ nonces
    orders := ordersAfter env core.orders p rx.msg
      (answerCode core.orders p rx.msg verdict.code) status }
  actions : ∃ issue events,
    actions = issue ++ .respond (some p.transaction) (answerCode core.orders p rx.msg verdict.code)
      verdict.challenge false status :: events ∧
    (∀ action ∈ issue, ∃ value now, action = .issued value now) ∧
    Reports (answerCode core.orders p rx.msg verdict.code) events

theorem issuedBy_eq_nil {actions : List Action}
    (h : ∀ action ∈ actions, ∀ value now, action ≠ .issued value now) : issuedBy actions = [] := by
  unfold issuedBy
  rw [List.filterMap_eq_nil_iff]
  intro action hmem
  cases action with
  | issued value now => exact absurd rfl (h _ hmem value now)
  | respond | terminate | emit => rfl

theorem Reports.issuedBy {code : ℕ} {events : List Action} (h : Reports code events) :
    issuedBy events = [] := by
  apply issuedBy_eq_nil
  rintro action hmem value now rfl
  obtain ⟨event, heq, -⟩ := h.emits _ hmem
  cases heq

/-- **Completion.** An entry that cannot be parsed again is terminated; any other one is judged and
answered. -/
theorem completePendingAuth_spec (pj : Pjsip) (env : CompleteEnv) (rt : Runtime)
    (p : PendingAuth) (command : AuthCommand) :
    (∃ rt', completePendingAuth pj env rt p command = (rt', [.terminate p.transaction 500]) ∧
        rt'.core = rt.core ∧ rebuildPendingRdata pj p = none) ∨
      ∃ rx verdict nonces status rt' actions, completePendingAuth pj env rt p command = (rt', actions) ∧
        judgedCode pj env rt p command = some verdict.code ∧
        Completes pj env rt.core p command rx verdict nonces status rt'.core actions := by
  unfold completePendingAuth
  rcases hrx : rebuildPendingRdata pj p with _ | rx
  · exact Or.inl ⟨_, rfl, rfl, rfl⟩
  obtain ⟨verdict, rt₁, nonces, hjudge, hcore₁, hjudged⟩ := judge_spec pj env rt rx.msg command
  have horders : rt₁.registerOrders = rt.registerOrders := congrArg Core.orders hcore₁
  have hnonces : rt₁.authNonces = nonces := congrArg Core.nonces hcore₁
  set code := answerCode rt.registerOrders p rx.msg verdict.code with hcode
  obtain ⟨status, issue, hsend, hissue⟩ :=
    sendResponse_spec env.send rt₁ (some p.transaction) code verdict.challenge false
  obtain ⟨rt₃, events, hreport, hcore₃, hreports⟩ := reportCompletion_spec env
    { rt₁ with authNonces := issuedBy issue ++ rt₁.authNonces, lastStatus := status } p rx code
    verdict.authStatus status
  rw [horders] at hreport
  simp only [hjudge, horders, ← hcode, hsend, hreport]
  have hverdict : judgedCode pj env rt p command = some verdict.code := by
    rw [judgedCode, hrx, Option.map_some, hjudge]
  refine Or.inr ⟨rx, verdict, nonces, status, rt₃, _, rfl, hverdict, hrx, hjudged, ?_, issue,
    events, ?_, ?_, hreports⟩
  · have hissued : issuedBy (issue ++ [.respond (some p.transaction) code verdict.challenge false
        status] ++ events) = issuedBy issue := by
      rw [issuedBy_append, issuedBy_append, hreports.issuedBy, List.append_nil]
      exact List.append_nil _
    have hbase : Runtime.core { rt₁ with
        authNonces := issuedBy issue ++ rt₁.authNonces, lastStatus := status } =
        { rt₁.core with nonces := issuedBy issue ++ rt₁.authNonces } := rfl
    rw [hcore₃, hissued, hbase, hcore₁, hnonces, horders]
    rfl
  · rw [List.append_assoc]
    rfl
  · intro action hmem
    rcases hissue with rfl | ⟨-, rfl⟩
    · cases hmem
    · exact ⟨_, _, List.mem_singleton.mp hmem⟩

/-- **Timeout.** An entry that cannot be parsed again is terminated; any other one is answered
504. -/
theorem expirePendingAuth_spec (pj : Pjsip) (env : SendEnv) (rt : Runtime) (p : PendingAuth) :
    ∃ rt' actions, expirePendingAuth pj env rt p = (rt', actions) ∧ rt'.core = rt.core ∧
      (actions = [.terminate p.transaction 500] ∨
        ∃ status event, actions = [.respond (some p.transaction) 504 false false status, .emit event] ∧
          (event.eventType = .authRejected ∨ event.eventType = .runtimeFault)) := by
  unfold expirePendingAuth
  rcases rebuildPendingRdata pj p with _ | rx
  · exact ⟨_, _, rfl, rfl, Or.inl rfl⟩
  obtain ⟨status, issue, hsend, hissue⟩ :=
    sendResponse_spec env rt (some p.transaction) 504 false false
  obtain rfl : issue = [] := hissue.resolve_right fun h => Bool.noConfusion h.1
  obtain ⟨rt₂, event, hevent, hcore₂, htype⟩ := emitAuthEvent_spec rt
    (if status = .success then .authRejected else .runtimeFault) 504 status p rx
  have hnil : ({ rt with authNonces := issuedBy [] ++ rt.authNonces } : Runtime) = rt := rfl
  rw [hnil] at hsend
  simp only [hsend, hevent]
  refine ⟨rt₂, _, rfl, hcore₂, Or.inr ⟨status, event, rfl, ?_⟩⟩
  rw [htype]
  split <;> simp

end GmvPjsip.Auth
