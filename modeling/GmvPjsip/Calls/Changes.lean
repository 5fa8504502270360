import GmvPjsip.Calls.Books
import GmvPjsip.Lib.Keyed

/-!
# What changes in the books

The records of the list are at distinct addresses and have distinct numbers, so that a move that
addresses a record by a pointer changes that one record and no other. This module says so once.

* `Book.Sound`: addresses and numbers are distinct, and no number is used again, not even after its
  record was removed. `runCalls_sound`: the books of every run are sound.
* `Change` lists what a move does to sound books, record by record. `Touch` is what can happen to one
  record.
* `runCalls_invariant`: what every change keeps holds in every run, also if the run is restricted by a
  condition on what happens.
-/

namespace GmvPjsip.Calls

open GmvPjsip.Auth
open GmvPjsip.Commands
open GmvPjsip.Lib
open Relation

/-! ## Sound books -/

/-- No two records share an address or a number. -/
structure Book.Sound (b : Book) : Prop where
  addresses : (b.calls.map InviteCall.address).Nodup
  once : ((b.removed ++ b.calls).map InviteCall.serial).Nodup
  fresh : ∀ n ∈ (b.removed ++ b.calls).map InviteCall.serial, n < b.serials
  operations : (b.operations.map DialogOperation.serial).Nodup
  freshOperations : ∀ o ∈ b.operations, o.serial < b.serials

/-- Events are no part of what makes the books sound. -/
theorem Book.Sound.emit {b : Book} (hb : b.Sound) (events : List CallEvent) : (b.emit events).Sound :=
  ⟨hb.addresses, hb.once, hb.fresh, hb.operations, hb.freshOperations⟩

/-- The record `r`, which stands between `pre` and `post`, reacts. -/
def Book.splice (b : Book) (pre : List InviteCall) (q : Reaction) (post : List InviteCall) : Book :=
  { b with
    calls := pre ++ (if q.dropped then [] else [q.call]) ++ post
    events := b.events ++ q.events
    removed := b.removed ++ if q.dropped then [q.call] else [] }

variable {q : Reaction} {r' r : InviteCall} {o : DialogOperation} {A : CallRuntime → Op → Prop}
    {ops : List Op}

section split

variable {b : Book} {pointer : ℕ} {pre post : List InviteCall} {r : InviteCall}

/-- Writing to a free address does nothing. -/
theorem alter_free (h : b.Free pointer) (f : InviteCall → InviteCall) : b.alter pointer f = b := by
  have hcalls : (b.calls.map fun r => if r.address = pointer then f r else r) = b.calls :=
    (List.map_congr_left fun r hr => if_neg (h r hr)).trans (List.map_id' b.calls)
  rw [Book.alter, hcalls]

/-- Neither does removing there. -/
theorem remove_free (h : b.Free pointer) : b.remove pointer = b := by
  have hkept : (b.calls.filter fun r => r.address ≠ pointer) = b.calls :=
    List.filter_eq_self.mpr fun r hr => decide_eq_true (h r hr)
  have hgone : (b.calls.filter fun r => r.address = pointer) = [] :=
    List.filter_eq_nil_iff.mpr fun r hr => by simpa using h r hr
  rw [Book.remove, hkept, hgone, List.append_nil]

/-- Nor dropping. -/
theorem drop_free (h : b.Free pointer) : b.drop pointer = b := by
  rw [Book.drop, alter_free h, remove_free h]

/-- An address is free, or one record of the list is there. -/
theorem free_or_split (b : Book) (pointer : ℕ) :
    b.Free pointer ∨ ∃ pre r post, b.calls = pre ++ r :: post ∧ r.address = pointer := by
  by_cases h : b.Free pointer
  · exact Or.inl h
  · simp only [Book.Free, not_forall, not_not] at h
    obtain ⟨r, hr, haddress⟩ := h
    obtain ⟨pre, post, hcalls⟩ := List.append_of_mem hr
    exact Or.inr ⟨pre, r, post, hcalls, haddress⟩

/-- A write is a reaction of the one record at the address. -/
theorem alter_split (hb : b.Sound) (hcalls : b.calls = pre ++ r :: post) (f : InviteCall → InviteCall) :
    b.alter r.address f = b.splice pre ⟨f r, [], false⟩ post := by
  have hmap := Keyed.map_at (hcalls ▸ hb.addresses) f
  rw [Book.alter, Book.splice, hcalls, hmap]
  simp

/-- So is a removal. -/
theorem remove_split (hb : b.Sound) (hcalls : b.calls = pre ++ r :: post) :
    b.remove r.address = b.splice pre ⟨r, [], true⟩ post := by
  have hkept := Keyed.filter_ne_at (hcalls ▸ hb.addresses)
  have hgone := Keyed.filter_eq_at (hcalls ▸ hb.addresses)
  rw [Book.remove, Book.splice, hcalls, hkept, hgone]
  simp

/-- A reaction keeps the numbers that were given out. -/
theorem splice_serials (hcalls : b.calls = pre ++ r :: post) (hserial : q.call.serial = r.serial) :
    (((b.splice pre q post).removed ++ (b.splice pre q post).calls).map InviteCall.serial).Perm
      ((b.removed ++ b.calls).map InviteCall.serial) := by
  rw [hcalls]
  exact Keyed.perm_splice hserial q.dropped

/-- A reaction that keeps address and number keeps books sound. -/
theorem sound_splice (hb : b.Sound) (hcalls : b.calls = pre ++ r :: post)
    (haddress : q.call.address = r.address) (hserial : q.call.serial = r.serial) :
    (b.splice pre q post).Sound := by
  have hperm := splice_serials hcalls hserial
  refine ⟨?_, hperm.nodup_iff.mpr hb.once, fun n hn => hb.fresh n (hperm.mem_iff.mp hn),
    hb.operations, hb.freshOperations⟩
  have haddresses := hcalls ▸ hb.addresses
  cases hdropped : q.dropped with
  | false => simpa [Book.splice, hdropped, haddress] using haddresses
  | true =>
    rw [List.map_append, List.map_cons, List.nodup_middle, List.nodup_cons] at haddresses
    simpa [Book.splice, hdropped] using haddresses.2

/-- What stands in the list after a reaction. -/
theorem mem_splice_calls (hcalls : b.calls = pre ++ r :: post)
    (h : r' ∈ (b.splice pre q post).calls) : r' = q.call ∧ q.dropped = false ∨ r' ∈ b.calls := by
  rw [hcalls]
  cases hdropped : q.dropped <;> simp [Book.splice, hdropped] at h ⊢ <;> tauto

/-- What was ever in the list after a reaction. -/
theorem mem_splice (hcalls : b.calls = pre ++ r :: post)
    (h : r' ∈ (b.splice pre q post).removed ++ (b.splice pre q post).calls) :
    r' = q.call ∨ r' ∈ b.removed ++ b.calls := by
  rw [hcalls]
  cases hdropped : q.dropped <;> simp [Book.splice, hdropped] at h ⊢ <;> tauto

end split

/-! ## Changes -/

/-- What can happen to a record `r` of the books `b` in the course of `op`, which began with the books
`b₀`. -/
inductive Touch (b₀ : Book) (op : Op) (b : Book) (r : InviteCall) : Reaction → Prop
  | enters {state : InvState} (hσ : .enters r.serial state ∈ op.signals)
      (hsession : r.invite ≠ none) :
      Touch b₀ op b r ⟨{ r with invite := some state, told := false }, [], false⟩
  | stateChanged (hσ : .stateChanged r.serial ∈ op.signals) (hsession : r.invite ≠ none) :
      Touch b₀ op b r (inviteOnStateChanged r)
  | tsx {tx : Transaction} {rdata : Option RxData} {q : Reaction}
      (hσ : .inviteTsx r.serial tx rdata ∈ op.signals) (hsession : r.invite ≠ none)
      (hreact : TsxReaction tx rdata r q) : Touch b₀ op b r q
  | captured {packet : Bytes} {source : SockAddr} {during : List Signal} {route : Option SockAddr}
      (hop : op = .receive packet source during)
      (hfind : (scannedCallId packet).bind b₀.find = some r)
      (hroute : r.saveDialogRoute (some source) = { r with dialogRoute := route }) :
      Touch b₀ op b r ⟨{ r with dialogRoute := route }, [], false⟩
  | inviteFailed {command : InviteCommand} {env : SendInviteEnv} (hop : op = .invite command env)
      (hid : r.operationId ≠ 0) : Touch b₀ op b r ⟨{ r with invite := none }, [], true⟩
  | ends {command : DialogCommand} {env : DialogEnv} (hop : op = .dialog command env)
      (hkind : command.restored = false) (hmethod : command.method = .bye) (hb : b = b₀)
      (hid : command.operationId ≠ 0) (hsession : r.invite ≠ none) (hidle : r.dialogOperationId = 0) :
      Touch b₀ op b r ⟨{ r with dialogOperationId := command.operationId }, [], false⟩
  | endFailed {command : DialogCommand} {env : DialogEnv} (hop : op = .dialog command env)
      (hkind : command.restored = false) (hmethod : command.method = .bye)
      (hfailed : env.bye.status ≠ .success) :
      Touch b₀ op b r ⟨{ r with dialogOperationId := 0 }, [], false⟩

/-- The operation `o` is completed. -/
def Book.finish (b : Book) (o : DialogOperation) (events : List CallEvent) : Book :=
  { b with
    operations := b.operations.filter fun o' => o'.serial ≠ o.serial
    events := b.events ++ events }

/-- The records of an association are gone. -/
def Book.swept (b : Book) (transport : SipTransport) (associationId : ℕ) : Book :=
  { b with
    calls := b.calls.filter fun r => ¬(r.transport = transport ∧ r.associationId = associationId)
    removed := b.removed ++ (b.calls.filter fun r => r.transport = transport ∧
      r.associationId = associationId).map fun r => { r with invite := none } }

/-- What is reported of an operation that is completed: its last response, or nothing. -/
def LastReport (o : DialogOperation) (events : List CallEvent) : Prop :=
  events = [] ∨ ∃ tx rdata, events = transactionEvent tx rdata o.operationId

/-- One change of sound books in the course of `op`, which began with the books `b₀`. -/
inductive Change (b₀ : Book) (op : Op) (b : Book) : Book → Prop
  | same : Change b₀ op b b
  | touched {pre post : List InviteCall} {r : InviteCall} {q : Reaction}
      (hcalls : b.calls = pre ++ r :: post) (htouch : Touch b₀ op b r q) :
      Change b₀ op b (b.splice pre q post)
  | invited {command : InviteCommand} {env : SendInviteEnv} {address : ℕ}
      (hop : op = .invite command env) (hb : b = b₀) (hid : command.operationId ≠ 0)
      (hcallId : command.callId ≠ []) (hfree : b.Free address) :
      Change b₀ op b (b.push (inviteCall b.serials address command command.callId))
  | accepted {invite : IncomingInvite} {env : Access.InviteEnv} {calloc : Option ℕ} {address : ℕ}
      (hop : op = .incoming invite env calloc) (hb : b = b₀) (hfree : b.Free address) :
      Change b₀ op b ((b.push (incomingCall b.serials address invite invite.callId)).emit
        [⟨.incomingInvite, invite.transport, 100, .success, some .invite, 0⟩])
  | restored {command : DialogCommand} {env : DialogEnv} {address : ℕ} {route : SockAddr}
      (hop : op = .dialog command env) (hkind : command.restored = true) (hb : b = b₀)
      (hid : command.operationId ≠ 0) (hcallId : command.callId ≠ []) (hfree : b.Free address) :
      Change b₀ op b ((b.push (restoredCall b.serials address command route)).begin
        ⟨b.serials, command.operationId, true, some address, false⟩)
  | informs {command : DialogCommand} {env : DialogEnv} (hop : op = .dialog command env)
      (hkind : command.restored = false) (hmethod : command.method ≠ .bye) (hb : b = b₀)
      (hid : command.operationId ≠ 0) :
      Change b₀ op b ({ b with serials := b.serials + 1 }.begin
        ⟨b.serials, command.operationId, false, none, false⟩)
  | reported {o : DialogOperation} {tx : Transaction} {rdata : Option RxData}
      (hmem : o ∈ b.operations) (hprogress : tx.statusCode < 200) :
      Change b₀ op b (b.emit (transactionEvent tx rdata o.operationId))
  | completed {o : DialogOperation} {events : List CallEvent} (hmem : o ∈ b.operations)
      (hevents : LastReport o events) (hgone : ∀ pointer, o.restoredCall = some pointer → b.Free pointer) :
      Change b₀ op b (b.finish o events)
  | discarded {o : DialogOperation} {events : List CallEvent} {pre post : List InviteCall}
      {r : InviteCall} (hmem : o ∈ b.operations) (hevents : LastReport o events)
      (hcalls : b.calls = pre ++ r :: post) (hpointer : o.restoredCall = some r.address) :
      Change b₀ op b ((b.finish o events).splice pre ⟨r, [], true⟩ post)
  | swept {command : CloseCommand} {env : CloseEnv} (hop : op = .close command env)
      (hfound : env.transportFound = true) (hb : b = b₀.signals env.during) :
      Change b₀ op b (b.swept command.transport command.associationId)

section identity

/-- A touch leaves what identifies the call. -/
theorem Touch.sameCall {b₀ b : Book} {op : Op}
    (htouch : Touch b₀ op b r q) : r.SameCall q.call := by
  cases htouch with
  | stateChanged => exact sameCall_inviteOnStateChanged r
  | tsx _ _ hreact => cases hreact <;> exact ⟨rfl, rfl, rfl, rfl, rfl, rfl⟩
  | _ => exact ⟨rfl, rfl, rfl, rfl, rfl, rfl⟩

end identity

/-! ## Moves are changes -/

section moves

variable {b₀ b b' : Book} {op : Op}

/-- A call that is found is in the list. -/
theorem mem_of_find {callId : Bytes} {call : InviteCall} (h : b.find callId = some call) :
    call ∈ b.calls := by
  unfold Book.find at h
  split_ifs at h
  exact List.mem_of_find?_eq_some h

/-- A reaction of a session is a reaction of its record, if there is one. -/
theorem react_split (hb : b.Sound) {f : InviteCall → Reaction}
    (hf : ∀ r : InviteCall, r.SameCall (f r).call) (session : ℕ) :
    ((∀ r ∈ b.calls, r.serial = session → r.invite = none) ∧ b.react session f = b) ∨
      ∃ pre r post, b.calls = pre ++ r :: post ∧ r.serial = session ∧ r.invite ≠ none ∧
        b.react session f = b.splice pre (f r) post := by
  unfold Book.react
  cases hcall : b.ofSession session with
  | none =>
    refine Or.inl ⟨fun r hr hserial => ?_, rfl⟩
    simpa [hserial] using List.find?_eq_none.mp hcall r hr
  | some r =>
    have hmatch := List.find?_some hcall
    rw [Bool.and_eq_true, decide_eq_true_eq] at hmatch
    obtain ⟨pre, post, hcalls⟩ := List.append_of_mem (List.mem_of_find?_eq_some hcall)
    refine Or.inr ⟨pre, r, post, hcalls, hmatch.1, Option.isSome_iff_ne_none.mp hmatch.2, ?_⟩
    simp only
    rw [alter_split hb hcalls]
    cases hdropped : (f r).dropped with
    | false => simp [Book.splice, Book.emit, hdropped]
    | true =>
      have hwritten : (b.splice pre ⟨(f r).call, [], false⟩ post).Sound :=
        sound_splice hb hcalls (hf r).address (hf r).serial
      have hstands : ((b.splice pre ⟨(f r).call, [], false⟩ post).emit (f r).events).calls =
          pre ++ (f r).call :: post := by simp [Book.splice, Book.emit]
      have hgone := remove_split (hwritten.emit (f r).events) hstands
      rw [(hf r).address] at hgone
      rw [if_pos rfl, hgone]
      simp [Book.splice, Book.emit, hdropped]

/-- A reaction of a session is a change, if it is a touch of its record. -/
theorem react_change (hb : b.Sound) {session : ℕ} {f : InviteCall → Reaction}
    (hf : ∀ r : InviteCall, r.SameCall (f r).call)
    (htouch : ∀ r : InviteCall, r.serial = session → r.invite ≠ none → Touch b₀ op b r (f r)) :
    Change b₀ op b (b.react session f) := by
  rcases react_split hb hf session with ⟨-, hsame⟩ | ⟨pre, r, post, hcalls, hserial, hsession, heq⟩
  · rw [hsame]
    exact .same
  · rw [heq]
    exact .touched hcalls (htouch r hserial hsession)

/-- The record at an address is dropped. -/
theorem drop_split (hb : b.Sound) {pre post : List InviteCall}
    (hcalls : b.calls = pre ++ r :: post) :
    b.drop r.address = b.splice pre ⟨{ r with invite := none }, [], true⟩ post := by
  have hwritten : (b.splice pre ⟨{ r with invite := none }, [], false⟩ post).Sound :=
    sound_splice hb hcalls rfl rfl
  have hstands : (b.splice pre ⟨{ r with invite := none }, [], false⟩ post).calls =
      pre ++ { r with invite := none } :: post := by simp [Book.splice]
  have hgone := remove_split hwritten hstands
  rw [Book.drop, alter_split hb hcalls]
  refine hgone.trans ?_
  simp [Book.splice]

/-- So is a drop. -/
theorem drop_change (hb : b.Sound) {pointer : ℕ} (htouch : ∀ r ∈ b.calls, r.address = pointer →
      Touch b₀ op b r ⟨{ r with invite := none }, [], true⟩) :
    Change b₀ op b (b.drop pointer) := by
  rcases free_or_split b pointer with hfree | ⟨pre, r, post, hcalls, rfl⟩
  · rw [drop_free hfree]
    exact .same
  · rw [drop_split hb hcalls]
    exact .touched hcalls (htouch r (by simp [hcalls]) rfl)

/-- Dropping records of the list one after the other. -/
theorem foldl_drop (rs : List InviteCall) (b : Book) (hb : b.Sound) (hrs : rs ⊆ b.calls)
    (hnodup : rs.Nodup) :
    rs.foldl (fun b r => b.drop r.address) b = { b with
        calls := b.calls.filter fun r => r ∉ rs
        removed := b.removed ++ rs.map fun r => { r with invite := none } } := by
  induction rs generalizing b with
  | nil => simp
  | cons r rest ih =>
    obtain ⟨pre, post, hcalls⟩ := List.append_of_mem (hrs List.mem_cons_self)
    have hrest : rest ⊆ pre ++ post := Keyed.subset_at (hcalls ▸ hrs) hnodup
    have hgone := Keyed.filter_notMem_at (hcalls ▸ hb.addresses) rest
    rw [List.foldl_cons, drop_split hb hcalls, ih _ (sound_splice hb hcalls rfl rfl)
      (by simpa [Book.splice] using hrest) (List.nodup_cons.mp hnodup).2, hcalls]
    simp only [Book.splice, if_true, List.append_nil, hgone, List.append_assoc, List.map_cons,
      List.singleton_append]

/-- A sweep takes out what belongs to the association. -/
theorem sweep_eq (hb : b.Sound) (transport : SipTransport) (associationId : ℕ) :
    b.sweep transport associationId = b.swept transport associationId := by
  have hnodup : b.calls.Nodup := List.Nodup.of_map _ hb.addresses
  rw [Book.sweep, foldl_drop _ b hb List.filter_sublist.subset (hnodup.filter _),
    Keyed.filter_notMem_filter]
  rfl

/-- The record at an address is written to, if there is one. -/
theorem alter_change (hb : b.Sound) {pointer : ℕ} {f : InviteCall → InviteCall}
    (htouch : ∀ r ∈ b.calls, r.address = pointer → Touch b₀ op b r ⟨f r, [], false⟩) :
    Change b₀ op b (b.alter pointer f) := by
  rcases free_or_split b pointer with hfree | ⟨pre, r, post, hcalls, rfl⟩
  · rw [alter_free hfree]
    exact .same
  · rw [alter_split hb hcalls]
    exact .touched hcalls (htouch r (by simp [hcalls]) rfl)

/-- An operation of the list is found by its serial number. -/
theorem operation_of_mem (hb : b.Sound) (ho : o ∈ b.operations) :
    b.operation o.serial = some o := by
  obtain ⟨pre, post, hoperations⟩ := List.append_of_mem ho
  have hne := Keyed.ne_of_nodup_split (hoperations ▸ hb.operations)
  rw [Book.operation, hoperations, List.find?_append]
  have hpre : pre.find? (fun o' => o'.serial = o.serial) = none :=
    List.find?_eq_none.mpr fun o' ho' => by simpa using hne o' (List.mem_append_left _ ho')
  simp [hpre]

/-- Finishing an operation keeps the books sound. -/
theorem sound_finish (hb : b.Sound) (o : DialogOperation) (events : List CallEvent) :
    (b.finish o events).Sound where
  addresses := hb.addresses
  once := hb.once
  fresh := hb.fresh
  operations := hb.operations.sublist (List.filter_sublist.map _)
  freshOperations o' ho' := hb.freshOperations o' (List.mem_filter.mp ho').1

/-- An operation is completed, and the record it points to goes. -/
theorem complete_split (hb : b.Sound) (ho : o ∈ b.operations) {pre post : List InviteCall}
    (hcalls : b.calls = pre ++ r :: post)
    (hpointer : o.restoredCall = some r.address) (events : List CallEvent) :
    (b.emit events).complete o.serial = (b.finish o events).splice pre ⟨r, [], true⟩ post := by
  have hoperation : (b.emit events).operation o.serial = some o := operation_of_mem (hb.emit events) ho
  have hgone := remove_split (sound_finish hb o events) hcalls
  unfold Book.complete
  rw [hoperation]
  simp only [hpointer]
  exact hgone

/-- An operation is completed. -/
theorem complete_change (hb : b.Sound) (ho : o ∈ b.operations) {events : List CallEvent}
    (hevents : LastReport o events) :
    Change b₀ op b ((b.emit events).complete o.serial) := by
  have hoperation : (b.emit events).operation o.serial = some o := operation_of_mem (hb.emit events) ho
  by_cases hgone : ∀ pointer, o.restoredCall = some pointer → b.Free pointer
  · have hchange : Change b₀ op b (b.finish o events) := .completed ho hevents hgone
    unfold Book.complete
    rw [hoperation]
    cases hpointer : o.restoredCall with
    | none =>
      simp only [hpointer]
      exact hchange
    | some pointer =>
      simp only [hpointer]
      have hsame := remove_free (b := b.finish o events) (hgone pointer hpointer)
      rw [← hsame] at hchange
      exact hchange
  · simp only [not_forall] at hgone
    obtain ⟨pointer, hpointer, hused⟩ := hgone
    obtain ⟨pre, r, post, hcalls, rfl⟩ := (free_or_split b pointer).resolve_left hused
    rw [complete_split hb ho hcalls hpointer]
    exact .discarded ho hevents hcalls hpointer

/-- **Every move changes sound books in one of these ways.** -/
theorem Move.change (hb : b.Sound) (hmove : Move b₀ op b b') : Change b₀ op b b' := by
  cases hmove with
  | @signal σ hσ =>
    cases σ with
    | enters =>
      exact react_change hb (fun _ => ⟨rfl, rfl, rfl, rfl, rfl, rfl⟩) fun r hr => .enters (hr ▸ hσ)
    | stateChanged =>
      exact react_change hb sameCall_inviteOnStateChanged fun r hr => .stateChanged (hr ▸ hσ)
    | inviteTsx session tx rdata =>
      exact react_change hb (sameCall_inviteOnTsxStateChanged tx rdata) fun r hr hsession =>
        .tsx (hr ▸ hσ) hsession (inviteOnTsxStateChanged_spec tx rdata r)
    | operationTsx serial tx rdata =>
      show Change b₀ op b (b.onTsxState serial tx rdata)
      unfold Book.onTsxState
      cases hoperation : b.operation serial with
      | none => exact .same
      | some o =>
        have ho : o ∈ b.operations := List.mem_of_find?_eq_some hoperation
        obtain rfl : o.serial = serial := by simpa using List.find?_some hoperation
        by_cases hover : 200 ≤ tx.statusCode ∨ tx.state = .terminated ∨ tx.state = .destroyed
        · simp only [if_pos hover]
          exact complete_change hb ho (Or.inr ⟨tx, rdata, rfl⟩)
        · simp only [if_neg hover]
          exact .reported ho (by omega)
  | captured hop hb₀ hfind =>
    subst hb₀
    obtain ⟨callId, -, hcallId⟩ := Option.bind_eq_some_iff.mp hfind
    refine alter_change hb fun r hr haddress => ?_
    obtain rfl := List.inj_on_of_nodup_map hb.addresses hr (mem_of_find hcallId) haddress
    obtain ⟨route, hroute⟩ := r.saveDialogRoute_eq (some _)
    rw [hroute]
    exact .captured hop hfind hroute
  | invited hop hb₀ hid hcallId hfree => exact .invited hop hb₀ hid hcallId hfree
  | inviteFailed address hop hown =>
    exact drop_change hb fun r hr haddress => .inviteFailed hop (hown r hr haddress)
  | accepted hop hb₀ hfree => exact .accepted hop hb₀ hfree
  | restored hop hkind hb₀ hid hcallId hfree => exact .restored hop hkind hb₀ hid hcallId hfree
  | ends hop hkind hmethod hb₀ hid hfind hsession hidle =>
    refine alter_change hb fun r hr haddress => ?_
    obtain rfl := List.inj_on_of_nodup_map hb.addresses hr (mem_of_find hfind) haddress
    exact .ends hop hkind hmethod hb₀ hid hsession hidle
  | endFailed address hop hkind hmethod hfailed =>
    exact alter_change hb fun _ _ _ => .endFailed hop hkind hmethod hfailed
  | informs hop hkind hmethod hb₀ hid => exact .informs hop hkind hmethod hb₀ hid
  | requestFailed serial =>
    cases hoperation : b.operation serial with
    | none =>
      unfold Book.complete
      rw [hoperation]
      exact .same
    | some o =>
      have ho : o ∈ b.operations := List.mem_of_find?_eq_some hoperation
      obtain rfl : o.serial = serial := by simpa using List.find?_some hoperation
      have hchange : Change b₀ op b _ := complete_change hb ho (Or.inl rfl)
      rwa [show b.emit [] = b by simp [Book.emit]] at hchange
  | swept hop hfound hb₀ =>
    rw [sweep_eq hb]
    exact .swept hop hfound hb₀

/-- A new record takes the next number. -/
theorem sound_push (hb : b.Sound) {call : InviteCall} (hserial : call.serial = b.serials)
    (hfree : b.Free call.address) : (b.push call).Sound where
  addresses := by
    rw [Book.push, List.map_cons, List.nodup_cons]
    refine ⟨fun hmem => ?_, hb.addresses⟩
    obtain ⟨r, hr, haddress⟩ := List.mem_map.mp hmem
    exact hfree r hr haddress
  once := by
    rw [Book.push, List.map_append, List.map_cons, List.nodup_middle, ← List.map_append, List.nodup_cons,
      hserial]
    exact ⟨fun hmem => Nat.lt_irrefl _ (hb.fresh _ hmem), hb.once⟩
  fresh := by
    intro n hn
    show n < b.serials + 1
    simp only [Book.push, List.map_append, List.map_cons, List.mem_append, List.mem_cons] at hn
    have hfresh := hb.fresh n
    rw [List.map_append, List.mem_append] at hfresh
    rcases hn with hn | rfl | hn
    · exact Nat.lt_succ_of_lt (hfresh (Or.inl hn))
    · omega
    · exact Nat.lt_succ_of_lt (hfresh (Or.inr hn))
  operations := hb.operations
  freshOperations o ho := Nat.lt_succ_of_lt (hb.freshOperations o ho)

/-- A number belongs to one record. -/
theorem eq_of_serial_eq (hb : b.Sound) (hr : r ∈ b.calls) (hr' : r' ∈ b.calls)
    (h : r.serial = r'.serial) : r = r' := by
  have hserials := hb.once
  rw [List.map_append] at hserials
  exact List.inj_on_of_nodup_map hserials.of_append_right hr hr' h

/-- A close moves records from one list to the other. -/
theorem sound_swept (hb : b.Sound) (transport : SipTransport) (associationId : ℕ) :
    (b.swept transport associationId).Sound := by
  have hperm : (((b.swept transport associationId).removed ++
      (b.swept transport associationId).calls).map InviteCall.serial).Perm
      ((b.removed ++ b.calls).map InviteCall.serial) :=
    Keyed.perm_filter _ fun _ => rfl
  exact ⟨hb.addresses.sublist (List.filter_sublist.map _), hperm.nodup_iff.mpr hb.once,
    fun n hn => hb.fresh n (hperm.mem_iff.mp hn), hb.operations, hb.freshOperations⟩

/-- What was ever in the list after a sweep. -/
theorem mem_swept {transport : SipTransport} {associationId : ℕ}
    (h : r' ∈ (b.swept transport associationId).removed ++ (b.swept transport associationId).calls) :
    (∃ r ∈ b.calls, r' = { r with invite := none }) ∨ r' ∈ b.removed ++ b.calls := by
  simp only [Book.swept, List.append_assoc, List.mem_append, List.mem_map, List.mem_filter] at h
  rcases h with h | ⟨r, hr, rfl⟩ | h
  · exact Or.inr (List.mem_append_left _ h)
  · exact Or.inl ⟨r, hr.1, rfl⟩
  · exact Or.inr (List.mem_append_right _ h.1)

/-- A new operation takes the number that was given out last. -/
theorem sound_begin {b₁ : Book} (hb : b.Sound) (hb₁ : b₁.Sound)
    (hoperations : b₁.operations = b.operations) (hserials : b₁.serials = b.serials + 1)
    (ho : o.serial = b.serials) : (b₁.begin o).Sound := by
  refine ⟨hb₁.addresses, hb₁.once, hb₁.fresh, ?_, ?_⟩
  · rw [Book.begin, List.map_cons, List.nodup_cons, hoperations, ho]
    refine ⟨fun hmem => ?_, hb.operations⟩
    obtain ⟨o', ho', hserial⟩ := List.mem_map.mp hmem
    exact absurd (hb.freshOperations o' ho') (by omega)
  · intro o' ho'
    rcases List.mem_cons.mp ho' with rfl | ho'
    · show o'.serial < b₁.serials
      omega
    · exact hb₁.freshOperations o' ho'

/-- A serial number may be left out. -/
theorem sound_number (hb : b.Sound) : ({ b with serials := b.serials + 1 } : Book).Sound :=
  ⟨hb.addresses, hb.once, fun n hn => Nat.lt_succ_of_lt (hb.fresh n hn), hb.operations,
    fun o ho => Nat.lt_succ_of_lt (hb.freshOperations o ho)⟩

/-- Every change keeps the books sound. -/
theorem Change.sound (hb : b.Sound) (hchange : Change b₀ op b b') : b'.Sound := by
  cases hchange with
  | same => exact hb
  | touched hcalls htouch =>
    exact sound_splice hb hcalls htouch.sameCall.address htouch.sameCall.serial
  | invited hop hb₀ hid hcallId hfree => exact sound_push hb rfl hfree
  | accepted hop hb₀ hfree => exact (sound_push hb rfl hfree).emit _
  | restored hop hkind hb₀ hid hcallId hfree =>
    exact sound_begin hb (sound_push hb rfl hfree) rfl rfl rfl
  | informs => exact sound_begin hb (sound_number hb) rfl rfl rfl
  | reported => exact hb.emit _
  | completed => exact sound_finish hb _ _
  | discarded hmem hevents hcalls =>
    exact sound_splice (sound_finish hb _ _) hcalls rfl rfl
  | swept => exact sound_swept hb _ _

/-- A signal keeps the books sound. -/
theorem sound_signal (hb : b.Sound) (σ : Signal) : (b.signal σ).Sound := by
  have hmove : Move b (.signal σ) b (b.signal σ) := .signal (List.mem_singleton.mpr rfl)
  exact (hmove.change hb).sound hb

end moves

/-! ## Runs -/

section runs

/-- Everything that happens in a run meets a condition on it and on the runtime it meets. -/
def Throughout (A : CallRuntime → Op → Prop) (ops : List Op) : Prop :=
  ∀ pre op post, ops = pre ++ op :: post → A (runCalls pre) op

/-- A run with one more operation. -/
theorem runCalls_append (ops : List Op) (op : Op) :
    runCalls (ops ++ [op]) = (runCalls ops).step op := by
  rw [runCalls, List.foldl_append]
  rfl

/-- What holds throughout a run holds throughout its beginning. -/
theorem throughout_front {ops' : List Op}
    (h : Throughout A (ops ++ ops')) : Throughout A ops := fun pre op post hops =>
  h pre op (post ++ ops') (by rw [hops, List.append_assoc, List.cons_append])

/-- What holds throughout a run holds at its last operation. -/
theorem throughout_append {op : Op}
    (h : Throughout A (ops ++ [op])) : Throughout A ops ∧ A (runCalls ops) op :=
  ⟨throughout_front h, h ops op [] rfl⟩

/-- What every change in the course of an operation keeps is kept by the operation. -/
theorem step_invariant {I : Book → Prop} {s : CallRuntime} (op : Op) (hs : s.book.Sound) (hI : I s.book)
    (hchange : ∀ b b', b.Sound → I b → Change s.book op b b' → I b') :
    (s.step op).book.Sound ∧ I (s.step op).book := by
  have hmoves := step_moves s op
  generalize (s.step op).book = b' at hmoves ⊢
  induction hmoves with
  | refl => exact ⟨hs, hI⟩
  | tail _ hmove ih =>
    have hc := hmove.change ih.1
    exact ⟨hc.sound ih.1, hchange _ _ ih.1 ih.2 hc⟩

/-- **Whatever happens is a sequence of changes.** -/
theorem step_changes {s : CallRuntime} (op : Op) (hs : s.book.Sound) :
    ReflTransGen (Change s.book op) s.book (s.step op).book :=
  (step_invariant (I := ReflTransGen (Change s.book op) s.book) op hs .refl
    fun _ _ _ hbefore hchange => hbefore.tail hchange).2

/-- **The books of every run are sound.** -/
theorem runCalls_sound (ops : List Op) : (runCalls ops).book.Sound := by
  induction ops using List.reverseRecOn with
  | nil => exact ⟨List.nodup_nil, List.nodup_nil, nofun, List.nodup_nil, nofun⟩
  | append_singleton ops op ih =>
    rw [runCalls_append]
    exact (step_invariant (I := fun _ => True) op ih trivial fun _ _ _ _ _ => trivial).1

/-- **What every change keeps holds in every run.** -/
theorem runCalls_invariant {I : Book → Prop} (hops : Throughout A ops)
    (hinit : I CallRuntime.init.book)
    (hchange : ∀ (s : CallRuntime) (op : Op) (b b' : Book), A s op → s.book.Sound → I s.book →
      b.Sound → I b → Change s.book op b b' → I b') : I (runCalls ops).book := by
  induction ops using List.reverseRecOn with
  | nil => exact hinit
  | append_singleton ops op ih =>
    obtain ⟨hbefore, hop⟩ := throughout_append hops
    have hs := runCalls_sound ops
    rw [runCalls_append]
    exact (step_invariant op hs (ih hbefore) fun b b' =>
      hchange (runCalls ops) op b b' hop hs (ih hbefore)).2

end runs

end GmvPjsip.Calls
