import GmvPjsip.Auth.Runtime

/-!
# Call records

A call has a record in the runtime's list `invite_calls`. A record of an outbound or an accepted
incoming INVITE belongs to an INVITE session of PJSIP; the record of a restored dialog has none and
only holds the Call-ID and the route of a request on its way.

* `CallRuntime.records` are the allocated records, the newest first. Those without
  `cleanup_pending` are, in this order, the list `invite_calls`; the others were taken out of it and
  are freed by the handler that still holds them.
* Every function here is written on pointers, as the source is: an address is free for reuse once its
  record is freed.
* `inviteCalls_write`, `inviteCalls_push`, `inviteCalls_release` and `inviteCalls_remove` say what each
  function makes of the list.
-/

namespace GmvPjsip.Calls

open GmvPjsip.Auth

/-! ## Data -/

/-- An IPv4 `pj_sockaddr`. -/
structure SockAddr where
  ip : ℕ
  port : ℕ
  deriving DecidableEq, Repr

/-- `pj_sockaddr_has_addr`. -/
def SockAddr.hasAddr (address : SockAddr) : Bool := address.ip ≠ 0

/-- `pjsip_inv_state`. -/
inductive InvState
  | null
  | calling
  | incoming
  | early
  | connecting
  | confirmed
  | disconnected
  deriving DecidableEq, Repr

/-- A `gmv_invite_call_t`. `serial` says which record of the run it is, and names its session too.
`invite` is the state of the session while the record has one, and `told` whether
`on_state_changed` was called in that state. The `mod_data` of a session and the `invite` field of
its record are set and cleared together, so the model has one of them. The field `active_calls` is in
`CallRuntime.held`. -/
structure InviteCall where
  serial : ℕ
  address : ℕ
  operationId : ℕ
  dialogOperationId : ℕ
  transport : SipTransport
  associationId : ℕ
  callId : Bytes
  invite : Option InvState
  told : Bool
  inviteFinalEmitted : Bool
  dialogRoute : Option SockAddr
  cleanupPending : Bool
  deriving DecidableEq, Repr

/-- A `gmv_dialog_operation_t`. `serial` names its transaction; a restored request takes the number
of its call record. `restoredCall` is a pointer. -/
structure DialogOperation where
  serial : ℕ
  operationId : ℕ
  restoredSessionHeld : Bool
  restoredCall : Option ℕ
  cleanupPending : Bool
  deriving DecidableEq, Repr

/-- The fields of a `gmv_sip_event_t` that tell the application about a request of its own. -/
structure CallEvent where
  eventType : EventType
  transport : SipTransport
  statusCode : ℕ
  pjStatus : PjStatus
  method : Option SipMethod
  operationId : ℕ
  deriving DecidableEq, Repr

/-- The part of a `gmv_sip_runtime` that calls use. `held` has the address of a record, and
`heldOperations` the number of an operation, as often as its `active_calls` says. `events` are those
emitted so far. `removed` is written and never read: the records that were taken out of the list, as
they were then. -/
structure CallRuntime where
  records : List InviteCall
  held : List ℕ
  operations : List DialogOperation
  heldOperations : List ℕ
  serials : ℕ
  events : List CallEvent
  removed : List InviteCall
  deriving DecidableEq, Repr

/-- A runtime without calls. -/
def CallRuntime.init : CallRuntime := ⟨[], [], [], [], 0, [], []⟩

/-- `runtime->invite_calls`. -/
def CallRuntime.inviteCalls (s : CallRuntime) : List InviteCall :=
  s.records.filter fun r => !r.cleanupPending

/-! ## The code -/

section code

variable (s : CallRuntime)

/-- Hand events to the callback. -/
def CallRuntime.emit (events : List CallEvent) : CallRuntime :=
  { s with events := s.events ++ events }

/-- Write to the record a pointer points to. -/
def CallRuntime.write (pointer : ℕ) (f : InviteCall → InviteCall) : CallRuntime :=
  { s with records := s.records.map fun r => if r.address = pointer then f r else r }

/-- Put a new record at the head of the list. -/
def CallRuntime.push (call : InviteCall) : CallRuntime :=
  { s with records := call :: s.records, serials := s.serials + 1 }

/-- `calloc` of a record: an address that is not in use, or a null pointer. -/
def CallRuntime.calloc (address : Option ℕ) : Option ℕ :=
  address.filter fun a => a ∉ s.records.map InviteCall.address

/-- Source: `shim.c`, `gmv_hold_invite_call` -/
def CallRuntime.holdInviteCall (pointer : ℕ) : CallRuntime :=
  { s with held := pointer :: s.held }

/-- A record that is let go for the last time is freed if it was taken out of the list meanwhile.
Source: `shim.c`, `gmv_release_invite_call` -/
def CallRuntime.releaseInviteCall (pointer : ℕ) : CallRuntime :=
  if pointer ∉ s.held then s
  else { s with
    held := s.held.erase pointer
    records := if pointer ∈ s.held.erase pointer then s.records
      else s.records.filter fun r => ¬(r.address = pointer ∧ r.cleanupPending) }

/-- One record under `gmv_remove_invite_call`. -/
def InviteCall.unlinked (held : Bool) (pointer : ℕ) (r : InviteCall) : Option InviteCall :=
  if r.address ≠ pointer ∨ r.cleanupPending then some r
  else if held then some { r with cleanupPending := true }
  else none

/-- Take the record a pointer points to out of the list, and free it unless it is held. A pointer to a
record that was freed reads freed memory; what it finds in the list, if anything, is the record that
has the address now.
Source: `shim.c`, `gmv_remove_invite_call` -/
def CallRuntime.removeInviteCall (pointer : ℕ) : CallRuntime :=
  { s with
    records := s.records.filterMap (InviteCall.unlinked (pointer ∈ s.held) pointer)
    removed := s.removed ++ s.inviteCalls.filter fun r => r.address = pointer }

/-- The record of a session. A record that was taken out of the list has lost its session.
Source: `shim.c`, `gmv_invite_call_from_session` -/
def CallRuntime.inviteCallFromSession (session : ℕ) : Option InviteCall :=
  s.inviteCalls.find? fun r => r.serial = session && r.invite.isSome

/-- The first record with a Call-ID.
Source: `shim_invite.inc`, `gmv_find_invite_call` -/
def CallRuntime.findInviteCall (callId : Bytes) : Option InviteCall :=
  if callId = [] then none else s.inviteCalls.find? fun r => r.callId = callId

/-- Whether `cleanup_pending` is set in the record a pointer points to. -/
def CallRuntime.cleanupPending (pointer : ℕ) : Bool :=
  s.records.any fun r => r.address = pointer && r.cleanupPending

end code

/-! ## The list -/

section list

variable {s : CallRuntime} {pointer : ℕ}

theorem mem_inviteCalls {r : InviteCall} :
    r ∈ s.inviteCalls ↔ r ∈ s.records ∧ r.cleanupPending = false := by
  rw [CallRuntime.inviteCalls, List.mem_filter, Bool.not_eq_true']

/-- A write that leaves `cleanup_pending` alone changes the record where it stands. -/
theorem inviteCalls_write {f : InviteCall → InviteCall}
    (hf : ∀ r, (f r).cleanupPending = r.cleanupPending) :
    (s.write pointer f).inviteCalls =
      s.inviteCalls.map fun r => if r.address = pointer then f r else r := by
  simp only [CallRuntime.inviteCalls, CallRuntime.write, List.filter_map]
  congr 2
  funext r
  simp only [Function.comp]
  by_cases hr : r.address = pointer
  · rw [if_pos hr, hf]
  · rw [if_neg hr]

theorem inviteCalls_push {call : InviteCall} (hcall : call.cleanupPending = false) :
    (s.push call).inviteCalls = call :: s.inviteCalls := by
  simp [CallRuntime.inviteCalls, CallRuntime.push, hcall]

/-- A release frees no record of the list. -/
theorem inviteCalls_release : (s.releaseInviteCall pointer).inviteCalls = s.inviteCalls := by
  unfold CallRuntime.releaseInviteCall
  by_cases hheld : pointer ∉ s.held
  · rw [if_pos hheld]
  rw [if_neg hheld]
  simp only [CallRuntime.inviteCalls]
  by_cases hmore : pointer ∈ s.held.erase pointer
  · rw [if_pos hmore]
  · rw [if_neg hmore, List.filter_filter]
    refine List.filter_congr fun r _ => ?_
    by_cases hc : r.cleanupPending = true <;> simp [hc]

/-- What is removed is what the pointer points to, and nothing else. -/
theorem inviteCalls_remove : (s.removeInviteCall pointer).inviteCalls =
      s.inviteCalls.filter fun r => r.address ≠ pointer := by
  simp only [CallRuntime.inviteCalls, CallRuntime.removeInviteCall]
  rw [List.filter_filterMap, List.filter_filter, ← List.filterMap_eq_filter]
  congr 1
  funext r
  unfold InviteCall.unlinked Option.guard
  by_cases hc : r.cleanupPending = true
  · simp [hc, Option.filter]
  · by_cases hp : r.address = pointer
    · by_cases hheld : pointer ∈ s.held <;> simp [hc, hp, hheld, Option.filter]
    · simp [hc, hp, Option.filter]

end list

end GmvPjsip.Calls
