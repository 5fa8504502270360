import GmvPjsip.Calls.Records

/-!
# What PJSIP reports of a call

PJSIP tells the shim about a call through two callbacks of its INVITE session, and about an INFO or a
restored request through the callback of the shim's own module. A callback runs between two commands
of the owner thread, or inside a call of PJSIP that a command makes.

* A session callback reads and writes the record of its session. It is modelled as a `Reaction` on that
  record: what is written, what is emitted, and whether the record is then taken out of the list.
* `TsxReaction` lists what a transaction event can do to a record, with the condition of each.
* `Signal` is one thing PJSIP does; `CallRuntime.signal` is its effect.
-/

namespace GmvPjsip.Calls

open GmvPjsip.Auth

/-! ## Transactions -/

/-- `pjsip_role_e`. -/
inductive Role
  | uac
  | uas
  deriving DecidableEq, Repr

/-- `pjsip_tsx_state_e`. -/
inductive TsxState
  | null
  | calling
  | trying
  | proceeding
  | completed
  | confirmed
  | terminated
  | destroyed
  deriving DecidableEq, Repr

/-- The part of a `pjsip_transaction` the callbacks read. -/
structure Transaction where
  role : Role
  method : SipMethod
  statusCode : ℕ
  state : TsxState
  deriving DecidableEq, Repr

/-- The part of a `pjsip_rx_data` the callbacks read. -/
structure RxData where
  transport : SipTransport
  srcAddr : SockAddr
  deriving DecidableEq, Repr

/-- A transaction of an INVITE that the shim sent. -/
def Transaction.IsInvite (tx : Transaction) : Prop := tx.role = .uac ∧ tx.method = .invite

/-- A transaction of a BYE or CANCEL that the shim sent. -/
def Transaction.IsEnding (tx : Transaction) : Prop :=
  tx.role = .uac ∧ (tx.method = .bye ∨ tx.method = .cancel)

/-- Report a transaction of the application. Without a message behind it the transport is unknown.
Source: `shim.c`, `gmv_emit_transaction_event` -/
def transactionEvent (tx : Transaction) (rdata : Option RxData) (operationId : ℕ) : List CallEvent :=
  if operationId = 0 ∨ tx.statusCode < 100 then []
  else [{
    eventType := .outboundResponse
    transport := (rdata.map RxData.transport).getD .unknown
    statusCode := tx.statusCode
    pjStatus := if 200 ≤ tx.statusCode ∧ tx.statusCode < 700 then .success else .other tx.statusCode
    method := some tx.method
    operationId := operationId }]

/-- A BYE or CANCEL of the other side. -/
def requestEvent (tx : Transaction) (rdata : Option RxData) : List CallEvent :=
  match rdata with
  | some rx =>
    if tx.method = .cancel ∨ tx.method = .bye then
      [⟨.requestReceived, rx.transport, 0, .success, some tx.method, 0⟩]
    else []
  | none => []

/-! ## Session callbacks -/

/-- What a callback does to the record of its session. -/
structure Reaction where
  call : InviteCall
  events : List CallEvent
  dropped : Bool
  deriving DecidableEq, Repr

/-- Save the source of a message, if there is a message and it has one.
Source: `shim.c`, `gmv_invite_call_save_dialog_route` -/
def InviteCall.saveDialogRoute (r : InviteCall) (srcAddr : Option SockAddr) : InviteCall :=
  match srcAddr with
  | some address => if address.hasAddr then { r with dialogRoute := some address } else r
  | none => r

/-- The record with the route of a 2xx saved. -/
def InviteCall.routed (r : InviteCall) (tx : Transaction) (rdata : Option RxData) : InviteCall :=
  if 200 ≤ tx.statusCode ∧ tx.statusCode < 300 then
    r.saveDialogRoute (rdata.map RxData.srcAddr)
  else r

/-- Source: `shim.c`, `gmv_invite_on_state_changed` -/
def inviteOnStateChanged (r : InviteCall) : Reaction :=
  if r.invite ≠ some .disconnected ∨ r.inviteFinalEmitted = false ∨ r.dialogOperationId ≠ 0 then
    ⟨{ r with told := true }, [], false⟩
  else ⟨{ r with told := true, invite := none }, [], true⟩

/-- Source: `shim.c`, `gmv_invite_on_tsx_state_changed` -/
def inviteOnTsxStateChanged (tx : Transaction) (rdata : Option RxData) (r : InviteCall) : Reaction :=
  if tx.role = .uas then ⟨r, requestEvent tx rdata, false⟩
  else if tx.method = .invite then
    let r := r.routed tx rdata
    if 200 ≤ tx.statusCode ∧ r.inviteFinalEmitted then ⟨r, [], false⟩
    else
      let events := transactionEvent tx rdata r.operationId
      if 200 ≤ tx.statusCode then
        let r := { r with inviteFinalEmitted := true }
        if r.invite = some .disconnected then ⟨{ r with invite := none }, events, true⟩
        else ⟨r, events, false⟩
      else ⟨r, events, false⟩
  else if (tx.method = .bye ∨ tx.method = .cancel) ∧ r.dialogOperationId ≠ 0 then
    let events := transactionEvent tx rdata r.dialogOperationId
    if 200 ≤ tx.statusCode then
      let r := { r with dialogOperationId := 0 }
      if r.invite = some .disconnected then ⟨{ r with invite := none }, events, true⟩
      else ⟨r, events, false⟩
    else ⟨r, events, false⟩
  else ⟨r, [], false⟩

/-- The record of a session reacts; a session without one is not looked at. -/
def CallRuntime.react (s : CallRuntime) (session : ℕ) (f : InviteCall → Reaction) : CallRuntime :=
  match s.inviteCallFromSession session with
  | none => s
  | some call =>
    let s' := (s.write call.address fun r => (f r).call).emit (f call).events
    if (f call).dropped then s'.removeInviteCall call.address else s'

/-! ## Operations of the module -/

/-- One operation under `gmv_complete_dialog_operation`. -/
def DialogOperation.completed (held : Bool) (serial : ℕ) (o : DialogOperation) :
    Option DialogOperation :=
  if o.serial ≠ serial ∨ o.cleanupPending then some o
  else if held then
    some { o with cleanupPending := true, restoredSessionHeld := false, restoredCall := none }
  else none

/-- The operation that a transaction carries. `gmv_on_tsx_state` takes it off the transaction before it
completes it. An operation that the handler of a request completes because PJSIP refused to send it is
freed when the handler returns, and the transaction still carries its address: that PJSIP does not report
such a transaction is an assumption where it matters, `Business.Forgets`. -/
def CallRuntime.operation (s : CallRuntime) (serial : ℕ) : Option DialogOperation :=
  s.operations.find? fun o => o.serial = serial && !o.cleanupPending

/-- Source: `shim.c`, `gmv_complete_dialog_operation` -/
def CallRuntime.completeDialogOperation (s : CallRuntime) (serial : ℕ) : CallRuntime :=
  match s.operation serial with
  | none => s
  | some o =>
    let s' := { s with
      operations := s.operations.filterMap
        (DialogOperation.completed (serial ∈ s.heldOperations) serial) }
    match o.restoredCall with
    | some pointer => s'.removeInviteCall pointer
    | none => s'

/-- Source: `shim.c`, `gmv_on_tsx_state` -/
def CallRuntime.onTsxState (s : CallRuntime) (serial : ℕ) (tx : Transaction)
    (rdata : Option RxData) : CallRuntime :=
  match s.operation serial with
  | none => s
  | some o =>
    let s' := s.emit (transactionEvent tx rdata o.operationId)
    if 200 ≤ tx.statusCode ∨ tx.state = .terminated ∨ tx.state = .destroyed then
      s'.completeDialogOperation serial
    else s'

/-! ## Signals -/

/-- One thing PJSIP does. -/
inductive Signal
  /-- A session enters a state. -/
  | enters (session : ℕ) (state : InvState)
  /-- `on_state_changed` is called. -/
  | stateChanged (session : ℕ)
  /-- `on_tsx_state_changed` is called. -/
  | inviteTsx (session : ℕ) (tx : Transaction) (rdata : Option RxData)
  /-- The module's `on_tsx_state` is called for the transaction of an operation. -/
  | operationTsx (serial : ℕ) (tx : Transaction) (rdata : Option RxData)
  deriving DecidableEq, Repr

/-- What a signal does. -/
def CallRuntime.signal (s : CallRuntime) : Signal → CallRuntime
  | .enters session state =>
    s.react session fun r => ⟨{ r with invite := some state, told := false }, [], false⟩
  | .stateChanged session => s.react session inviteOnStateChanged
  | .inviteTsx session tx rdata => s.react session (inviteOnTsxStateChanged tx rdata)
  | .operationTsx serial tx rdata => s.onTsxState serial tx rdata

/-- What signals do, one after the other. -/
def CallRuntime.signals (s : CallRuntime) (σs : List Signal) : CallRuntime := σs.foldl .signal s

/-! ## What a transaction event does -/

/-- What a transaction event can do to a record. -/
inductive TsxReaction (tx : Transaction) (rdata : Option RxData) (r : InviteCall) : Reaction → Prop
  | request (huas : tx.role = .uas) : TsxReaction tx rdata r ⟨r, requestEvent tx rdata, false⟩
  | repeated (hinvite : tx.IsInvite) (hfinal : 200 ≤ tx.statusCode)
      (hemitted : r.inviteFinalEmitted = true) {route : Option SockAddr}
      (hroute : r.routed tx rdata = { r with dialogRoute := route }) :
      TsxReaction tx rdata r ⟨{ r with dialogRoute := route }, [], false⟩
  | progress (hinvite : tx.IsInvite) (hfinal : tx.statusCode < 200) :
      TsxReaction tx rdata r ⟨r, transactionEvent tx rdata r.operationId, false⟩
  | answered (hinvite : tx.IsInvite) (hfinal : 200 ≤ tx.statusCode)
      (hemitted : r.inviteFinalEmitted = false) (hlive : r.invite ≠ some .disconnected)
      {route : Option SockAddr} (hroute : r.routed tx rdata = { r with dialogRoute := route }) :
      TsxReaction tx rdata r ⟨{ r with dialogRoute := route, inviteFinalEmitted := true },
        transactionEvent tx rdata r.operationId, false⟩
  | answeredLast (hinvite : tx.IsInvite) (hfinal : 200 ≤ tx.statusCode)
      (hemitted : r.inviteFinalEmitted = false) (hover : r.invite = some .disconnected)
      {route : Option SockAddr} (hroute : r.routed tx rdata = { r with dialogRoute := route }) :
      TsxReaction tx rdata r ⟨{ r with
        dialogRoute := route, inviteFinalEmitted := true, invite := none },
        transactionEvent tx rdata r.operationId, true⟩
  | ending (hending : tx.IsEnding) (hbusy : r.dialogOperationId ≠ 0)
      (hfinal : tx.statusCode < 200) :
      TsxReaction tx rdata r ⟨r, transactionEvent tx rdata r.dialogOperationId, false⟩
  | ended (hending : tx.IsEnding) (hbusy : r.dialogOperationId ≠ 0) (hfinal : 200 ≤ tx.statusCode)
      (hlive : r.invite ≠ some .disconnected) :
      TsxReaction tx rdata r ⟨{ r with dialogOperationId := 0 },
        transactionEvent tx rdata r.dialogOperationId, false⟩
  | endedLast (hending : tx.IsEnding) (hbusy : r.dialogOperationId ≠ 0)
      (hfinal : 200 ≤ tx.statusCode) (hover : r.invite = some .disconnected) :
      TsxReaction tx rdata r ⟨{ r with dialogOperationId := 0, invite := none },
        transactionEvent tx rdata r.dialogOperationId, true⟩
  | ignored (hother : tx.role = .uac) (hinvite : tx.method ≠ .invite)
      (hidle : tx.IsEnding → r.dialogOperationId = 0) : TsxReaction tx rdata r ⟨r, [], false⟩

/-- Saving a route touches nothing else. -/
theorem InviteCall.saveDialogRoute_eq (r : InviteCall) (srcAddr : Option SockAddr) :
    ∃ route, r.saveDialogRoute srcAddr = { r with dialogRoute := route } := by
  cases srcAddr with
  | none => exact ⟨r.dialogRoute, rfl⟩
  | some address =>
    by_cases haddr : address.hasAddr = true
    · exact ⟨some address, if_pos haddr⟩
    · exact ⟨r.dialogRoute, if_neg haddr⟩

theorem InviteCall.routed_eq (r : InviteCall) (tx : Transaction) (rdata : Option RxData) :
    ∃ route, r.routed tx rdata = { r with dialogRoute := route } := by
  unfold InviteCall.routed
  by_cases h2xx : 200 ≤ tx.statusCode ∧ tx.statusCode < 300
  · rw [if_pos h2xx]
    exact r.saveDialogRoute_eq _
  · exact ⟨r.dialogRoute, if_neg h2xx⟩

/-- The transaction callback does one of these. -/
theorem inviteOnTsxStateChanged_spec (tx : Transaction) (rdata : Option RxData) (r : InviteCall) :
    TsxReaction tx rdata r (inviteOnTsxStateChanged tx rdata r) := by
  unfold inviteOnTsxStateChanged
  cases hrole : tx.role with
  | uas =>
    rw [if_pos rfl]
    exact .request hrole
  | uac =>
    rw [if_neg (by decide)]
    by_cases hinvite : tx.method = .invite
    · rw [if_pos hinvite]
      have hkind : tx.IsInvite := ⟨hrole, hinvite⟩
      obtain ⟨route, hroute⟩ := r.routed_eq tx rdata
      by_cases hfinal : 200 ≤ tx.statusCode
      · simp only [hroute]
        by_cases hemitted : r.inviteFinalEmitted = true
        · rw [if_pos ⟨hfinal, hemitted⟩]
          exact .repeated hkind hfinal hemitted hroute
        · rw [if_neg fun h => hemitted h.2, if_pos hfinal]
          rw [Bool.not_eq_true] at hemitted
          by_cases hover : r.invite = some .disconnected
          · rw [if_pos hover]
            exact .answeredLast hkind hfinal hemitted hover hroute
          · rw [if_neg hover]
            exact .answered hkind hfinal hemitted hover hroute
      · have hrouted : r.routed tx rdata = r := if_neg fun h => hfinal h.1
        simp only [hrouted, hfinal, false_and, if_false]
        exact .progress hkind (Nat.not_le.mp hfinal)
    · rw [if_neg hinvite]
      by_cases hending : (tx.method = .bye ∨ tx.method = .cancel) ∧ r.dialogOperationId ≠ 0
      · rw [if_pos hending]
        have hkind : tx.IsEnding := ⟨hrole, hending.1⟩
        by_cases hfinal : 200 ≤ tx.statusCode
        · simp only [hfinal, if_true]
          by_cases hover : r.invite = some .disconnected
          · rw [if_pos hover]
            exact .endedLast hkind hending.2 hfinal hover
          · rw [if_neg hover]
            exact .ended hkind hending.2 hfinal hover
        · simp only [hfinal, if_false]
          exact .ending hkind hending.2 (Nat.not_le.mp hfinal)
      · rw [if_neg hending]
        refine .ignored hrole hinvite fun hkind => ?_
        by_contra hbusy
        exact hending ⟨hkind.2, hbusy⟩

/-! ## What no callback changes -/

/-- Two states of one record. -/
structure InviteCall.SameCall (r r' : InviteCall) : Prop where
  serial : r'.serial = r.serial
  address : r'.address = r.address
  operationId : r'.operationId = r.operationId
  transport : r'.transport = r.transport
  associationId : r'.associationId = r.associationId
  callId : r'.callId = r.callId

theorem InviteCall.SameCall.refl (r : InviteCall) : r.SameCall r := ⟨rfl, rfl, rfl, rfl, rfl, rfl⟩

theorem InviteCall.SameCall.trans {r r' r'' : InviteCall} (h : r.SameCall r') (h' : r'.SameCall r'') :
    r.SameCall r'' where
  serial := h'.serial.trans h.serial
  address := h'.address.trans h.address
  operationId := h'.operationId.trans h.operationId
  transport := h'.transport.trans h.transport
  associationId := h'.associationId.trans h.associationId
  callId := h'.callId.trans h.callId

theorem sameCall_inviteOnStateChanged (r : InviteCall) : r.SameCall (inviteOnStateChanged r).call := by
  unfold inviteOnStateChanged
  split_ifs <;> exact ⟨rfl, rfl, rfl, rfl, rfl, rfl⟩

theorem sameCall_inviteOnTsxStateChanged (tx : Transaction) (rdata : Option RxData)
    (r : InviteCall) : r.SameCall (inviteOnTsxStateChanged tx rdata r).call := by
  have hreact := inviteOnTsxStateChanged_spec tx rdata r
  generalize inviteOnTsxStateChanged tx rdata r = q at hreact
  cases hreact <;> exact ⟨rfl, rfl, rfl, rfl, rfl, rfl⟩

end GmvPjsip.Calls
