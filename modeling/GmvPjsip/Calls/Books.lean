import GmvPjsip.Calls.Requests
import Mathlib.Logic.Relation

/-!
# The books of a runtime

What the calls of a runtime come to when memory management is left out: the records of the list, the
operations under way, the events, and the records that were removed.

* `CallRuntime.book` is the abstraction, and `Book.signal` the abstract reading of a signal.
  `book_signal`: the code refines it.
* `Move b₀ op` is one change of the books in the course of `op`, which began with the books `b₀`.
  `step_moves`: whatever happens is a sequence of moves. Every invariant of calls is proved on moves.
-/

namespace GmvPjsip.Calls

open GmvPjsip.Auth
open GmvPjsip.Commands
open Relation

/-! ## Books -/

/-- The books. -/
structure Book where
  calls : List InviteCall
  operations : List DialogOperation
  serials : ℕ
  events : List CallEvent
  removed : List InviteCall

/-- The books of a runtime. -/
def CallRuntime.book (s : CallRuntime) : Book where
  calls := s.inviteCalls
  operations := s.operations.filter fun o => !o.cleanupPending
  serials := s.serials
  events := s.events
  removed := s.removed

section changes

variable (b : Book)

def Book.emit (events : List CallEvent) : Book := { b with events := b.events ++ events }

/-- Write to the record at an address. -/
def Book.alter (pointer : ℕ) (f : InviteCall → InviteCall) : Book :=
  { b with calls := b.calls.map fun r => if r.address = pointer then f r else r }

/-- Take the record at an address out of the list. -/
def Book.remove (pointer : ℕ) : Book :=
  { b with
    calls := b.calls.filter fun r => r.address ≠ pointer
    removed := b.removed ++ b.calls.filter fun r => r.address = pointer }

/-- Give up the session of the record at an address, and take the record out of the list. -/
def Book.drop (pointer : ℕ) : Book :=
  (b.alter pointer fun r => { r with invite := none }).remove pointer

/-- Give up the sessions of an association, and take their records out of the list. -/
def Book.sweep (transport : SipTransport) (associationId : ℕ) : Book :=
  (b.calls.filter fun r => r.transport = transport ∧ r.associationId = associationId).foldl
    (fun b r => b.drop r.address) b

def Book.push (call : InviteCall) : Book :=
  { b with calls := call :: b.calls, serials := b.serials + 1 }

def Book.begin (operation : DialogOperation) : Book :=
  { b with operations := operation :: b.operations }

/-- The first record with a Call-ID. -/
def Book.find (callId : Bytes) : Option InviteCall :=
  if callId = [] then none else b.calls.find? fun r => r.callId = callId

/-- The record of a session. -/
def Book.ofSession (session : ℕ) : Option InviteCall :=
  b.calls.find? fun r => r.serial = session && r.invite.isSome

/-- The record of a session reacts. -/
def Book.react (session : ℕ) (f : InviteCall → Reaction) : Book :=
  match b.ofSession session with
  | none => b
  | some call =>
    let b' := (b.alter call.address fun r => (f r).call).emit (f call).events
    if (f call).dropped then b'.remove call.address else b'

def Book.operation (serial : ℕ) : Option DialogOperation :=
  b.operations.find? fun o => o.serial = serial

/-- An operation is completed, and the record it restored is taken out of the list. -/
def Book.complete (serial : ℕ) : Book :=
  match b.operation serial with
  | none => b
  | some o =>
    let b' := { b with operations := b.operations.filter fun o => o.serial ≠ serial }
    match o.restoredCall with
    | some pointer => b'.remove pointer
    | none => b'

def Book.onTsxState (serial : ℕ) (tx : Transaction) (rdata : Option RxData) : Book :=
  match b.operation serial with
  | none => b
  | some o =>
    let b' := b.emit (transactionEvent tx rdata o.operationId)
    if 200 ≤ tx.statusCode ∨ tx.state = .terminated ∨ tx.state = .destroyed then
      b'.complete serial
    else b'

/-- What a signal does to the books. -/
def Book.signal : Signal → Book
  | .enters session state =>
    b.react session fun r => ⟨{ r with invite := some state, told := false }, [], false⟩
  | .stateChanged session => b.react session inviteOnStateChanged
  | .inviteTsx session tx rdata => b.react session (inviteOnTsxStateChanged tx rdata)
  | .operationTsx serial tx rdata => b.onTsxState serial tx rdata

def Book.signals (σs : List Signal) : Book := σs.foldl .signal b

end changes

/-! ## The code refines the books -/

section refinement

variable {s : CallRuntime} {pointer serial : ℕ}

/-- A write to a record is one in the books. -/
theorem book_write (s : CallRuntime) (pointer : ℕ) (f : InviteCall → InviteCall)
    (hf : ∀ r, (f r).cleanupPending = r.cleanupPending) :
    (s.write pointer f).book = s.book.alter pointer f := by
  simp only [CallRuntime.book, Book.alter, inviteCalls_write hf]
  rfl

/-- Freeing a record is none of their business. -/
theorem book_release : (s.releaseInviteCall pointer).book = s.book := by
  simp only [CallRuntime.book, inviteCalls_release]
  unfold CallRuntime.releaseInviteCall
  split_ifs <;> rfl

/-- A removal is one in the books. -/
theorem book_remove : (s.removeInviteCall pointer).book = s.book.remove pointer := by
  simp only [CallRuntime.book, Book.remove, inviteCalls_remove]
  rfl

/-- A drop is one in the books. -/
theorem book_drop : (s.dropInviteCall pointer).book = s.book.drop pointer := by
  rw [CallRuntime.dropInviteCall, book_remove, Book.drop,
    book_write s pointer (fun r => { r with invite := none }) fun _ => rfl]

/-- A close sweeps the books. -/
theorem book_closeAssociationCalls (transport : SipTransport) (associationId : ℕ) :
    (s.closeAssociationCalls transport associationId).book = s.book.sweep transport associationId := by
  have hfold : ∀ (rs : List InviteCall) (t : CallRuntime),
      (rs.foldl (fun t r => t.dropInviteCall r.address) t).book =
        rs.foldl (fun b r => b.drop r.address) t.book := by
    intro rs
    induction rs with
    | nil => exact fun _ => rfl
    | cons r rest ih =>
      intro t
      rw [List.foldl_cons, List.foldl_cons, ih, book_drop]
  exact hfold _ s

/-- A new record is entered. -/
theorem book_push {call : InviteCall} (hcall : call.cleanupPending = false) :
    (s.push call).book = s.book.push call := by
  simp only [CallRuntime.book, Book.push, inviteCalls_push hcall]
  rfl

/-- A new operation is entered. -/
theorem book_begin {operation : DialogOperation} (hoperation : operation.cleanupPending = false) :
    (s.begin operation).book = s.book.begin operation := by
  simp [CallRuntime.book, Book.begin, CallRuntime.begin, CallRuntime.inviteCalls, hoperation]

/-- A callback does not mark the record. -/
theorem inviteOnStateChanged_cleanupPending (r : InviteCall) :
    (inviteOnStateChanged r).call.cleanupPending = r.cleanupPending := by
  unfold inviteOnStateChanged
  split_ifs <;> rfl

/-- Nor does the other one. -/
theorem inviteOnTsxStateChanged_cleanupPending (tx : Transaction) (rdata : Option RxData)
    (r : InviteCall) :
    (inviteOnTsxStateChanged tx rdata r).call.cleanupPending = r.cleanupPending := by
  have hreact := inviteOnTsxStateChanged_spec tx rdata r
  generalize inviteOnTsxStateChanged tx rdata r = q at hreact
  cases hreact <;> rfl

/-- A reaction is one in the books. -/
theorem book_react {f : InviteCall → Reaction}
    (hf : ∀ r, (f r).call.cleanupPending = r.cleanupPending) (session : ℕ) :
    (s.react session f).book = s.book.react session f := by
  unfold CallRuntime.react Book.react
  rw [show s.book.ofSession session = s.inviteCallFromSession session from rfl]
  cases s.inviteCallFromSession session with
  | none => rfl
  | some call =>
    have hwrite : (s.write call.address fun r => (f r).call).book = _ := book_write s _ _ hf
    by_cases hdropped : (f call).dropped = true
    · simp only [hdropped, if_true, book_remove]
      rw [← hwrite]
      rfl
    · simp only [hdropped, Bool.false_eq_true, if_false]
      rw [← hwrite]
      rfl

/-- An operation is found in the books as in the runtime. -/
theorem book_operation : s.book.operation serial = s.operation serial := by
  rw [Book.operation, CallRuntime.operation, CallRuntime.book, List.find?_filter]
  congr 1
  funext o
  simp [Bool.and_comm]

/-- Only the operation that ends leaves the list. -/
theorem operations_completed (held : Bool) (operations : List DialogOperation) :
    ((operations.filterMap (DialogOperation.completed held serial)).filter fun o =>
        !o.cleanupPending) =
      (operations.filter fun o => !o.cleanupPending).filter fun o => o.serial ≠ serial := by
  rw [List.filter_filterMap, List.filter_filter, ← List.filterMap_eq_filter]
  congr 1
  funext o
  unfold DialogOperation.completed Option.guard
  by_cases hc : o.cleanupPending = true
  · simp [hc, Option.filter]
  · by_cases hp : o.serial = serial
    · cases held <;> simp [hc, hp, Option.filter]
    · simp [hc, hp, Option.filter]

/-- The end of an operation is one in the books. -/
theorem book_complete : (s.completeDialogOperation serial).book = s.book.complete serial := by
  unfold CallRuntime.completeDialogOperation Book.complete
  rw [book_operation]
  cases s.operation serial with
  | none => rfl
  | some o =>
    have hoperations : ({ s with
        operations := s.operations.filterMap
          (DialogOperation.completed (serial ∈ s.heldOperations) serial) } : CallRuntime).book =
        { s.book with operations := s.book.operations.filter fun o => o.serial ≠ serial } := by
      simp only [CallRuntime.book, operations_completed]
      rfl
    cases hrestored : o.restoredCall with
    | none => simp only [hrestored, hoperations]
    | some pointer => simp only [hrestored, book_remove, hoperations]

/-- A transaction of an operation is one in the books. -/
theorem book_onTsxState (tx : Transaction) (rdata : Option RxData) :
    (s.onTsxState serial tx rdata).book = s.book.onTsxState serial tx rdata := by
  unfold CallRuntime.onTsxState Book.onTsxState
  rw [book_operation]
  cases s.operation serial with
  | none => rfl
  | some o =>
    by_cases hover : 200 ≤ tx.statusCode ∨ tx.state = .terminated ∨ tx.state = .destroyed
    · simp only [if_pos hover, book_complete]
      rfl
    · simp only [if_neg hover]
      rfl

/-- **A signal does to the runtime what it does to the books.** -/
theorem book_signal (σ : Signal) : (s.signal σ).book = s.book.signal σ := by
  cases σ with
  | enters session => exact book_react (fun _ => rfl) session
  | stateChanged session => exact book_react inviteOnStateChanged_cleanupPending session
  | inviteTsx session tx rdata =>
    exact book_react (inviteOnTsxStateChanged_cleanupPending tx rdata) session
  | operationTsx serial tx rdata => exact book_onTsxState tx rdata

/-- **What PJSIP signals is read off the books alone.** -/
theorem book_signals (σs : List Signal) : (s.signals σs).book = s.book.signals σs := by
  induction σs generalizing s with
  | nil => rfl
  | cons σ rest ih => exact ih.trans (congrArg (fun b => Book.signals b rest) (book_signal σ))

/-- Freeing an operation is none of their business either. -/
theorem book_releaseOperation : (s.releaseDialogOperation serial).book = s.book := by
  unfold CallRuntime.releaseDialogOperation
  by_cases hheld : serial ∉ s.heldOperations
  · rw [if_pos hheld]
  rw [if_neg hheld]
  simp only [CallRuntime.book, CallRuntime.inviteCalls]
  by_cases hmore : serial ∈ s.heldOperations.erase serial
  · rw [if_pos hmore]
  · rw [if_neg hmore, List.filter_filter]
    refine congrArg (fun operations => Book.mk _ operations _ _ _) ?_
    refine List.filter_congr fun o _ => ?_
    by_cases hc : o.cleanupPending = true <;> simp [hc]

/-- What sending the request of an operation comes to. -/
theorem book_sendOperation (env : SendEnv) : (s.sendOperation serial env).2.book =
      if env.status ≠ .success then (s.book.signals env.during).complete serial
      else s.book.signals env.during := by
  unfold CallRuntime.sendOperation
  by_cases hfail : env.status ≠ .success
  · simp only [if_pos hfail, book_releaseOperation, book_complete, book_signals]
    rfl
  · simp only [if_neg hfail, book_releaseOperation, book_signals]
    rfl

end refinement

/-! ## The records behind a signal -/

section records

variable {b : Book}

/-- A removal adds no record. -/
theorem calls_remove (pointer : ℕ) {r' : InviteCall} (h : r' ∈ (b.remove pointer).calls) :
    r' ∈ b.calls := (List.mem_filter.mp h).1

/-- Records stay those of the same calls. -/
theorem sameCall_react {session : ℕ} {f : InviteCall → Reaction}
    (hf : ∀ r : InviteCall, r.SameCall (f r).call) :
    ∀ r' ∈ (b.react session f).calls, ∃ r ∈ b.calls, r.SameCall r' := by
  intro r' hr'
  unfold Book.react at hr'
  cases hcall : b.ofSession session with
  | none =>
    rw [hcall] at hr'
    exact ⟨r', hr', .refl r'⟩
  | some call =>
    rw [hcall] at hr'
    have haltered : r' ∈ (b.alter call.address fun r => (f r).call).calls := by
      by_cases hdropped : (f call).dropped = true
      · simp only [if_pos hdropped] at hr'
        exact calls_remove _ hr'
      · simp only [if_neg hdropped] at hr'
        exact hr'
    obtain ⟨r, hr, rfl⟩ := List.mem_map.mp haltered
    refine ⟨r, hr, ?_⟩
    by_cases hown : r.address = call.address
    · rw [if_pos hown]
      exact hf r
    · rw [if_neg hown]
      exact .refl r

/-- The end of an operation adds no record. -/
theorem calls_complete (serial : ℕ) : (b.complete serial).calls ⊆ b.calls := by
  unfold Book.complete
  cases b.operation serial with
  | none => exact fun _ h => h
  | some o =>
    cases hpointer : o.restoredCall with
    | none =>
      simp only [hpointer]
      exact fun _ h => h
    | some pointer =>
      simp only [hpointer]
      exact fun _ h => calls_remove _ h

/-- Completing an operation reports nothing. -/
theorem events_complete (b : Book) (serial : ℕ) : (b.complete serial).events = b.events := by
  unfold Book.complete
  cases b.operation serial with
  | none => rfl
  | some o =>
    cases hpointer : o.restoredCall with
    | none => simp only [hpointer]
    | some pointer =>
      simp only [hpointer]
      rfl

/-- A signal makes no records. -/
theorem sameCall_signal (σ : Signal) : ∀ r' ∈ (b.signal σ).calls, ∃ r ∈ b.calls, r.SameCall r' := by
  cases σ with
  | enters => exact sameCall_react fun _ => ⟨rfl, rfl, rfl, rfl, rfl, rfl⟩
  | stateChanged => exact sameCall_react sameCall_inviteOnStateChanged
  | inviteTsx session tx rdata => exact sameCall_react (sameCall_inviteOnTsxStateChanged tx rdata)
  | operationTsx serial tx rdata =>
    intro r' hr'
    refine ⟨r', ?_, .refl r'⟩
    change r' ∈ (b.onTsxState serial tx rdata).calls at hr'
    unfold Book.onTsxState at hr'
    cases hoperation : b.operation serial with
    | none => rwa [hoperation] at hr'
    | some o =>
      rw [hoperation] at hr'
      simp only at hr'
      split_ifs at hr'
      · exact calls_complete (b := b.emit _) serial hr'
      · exact hr'

/-- Signals leave the calls what they are. -/
theorem sameCall_signals (σs : List Signal) :
    ∀ r' ∈ (b.signals σs).calls, ∃ r ∈ b.calls, r.SameCall r' := by
  induction σs generalizing b with
  | nil => exact fun r' hr' => ⟨r', hr', .refl r'⟩
  | cons σ rest ih =>
    intro r' hr'
    obtain ⟨r₁, hr₁, hlast⟩ := ih r' hr'
    obtain ⟨r, hr, hfirst⟩ := sameCall_signal σ r₁ hr₁
    exact ⟨r, hr, hfirst.trans hlast⟩

end records

/-! ## Moves -/

/-- The signals PJSIP may give in the course of what happens. -/
def Op.signals : Op → List Signal
  | .signal σ => [σ]
  | .receive _ _ during => during
  | .invite _ env => env.send.during
  | .dialog _ env => env.restored.send.during ++ env.bye.endSession.during ++ env.bye.send.during ++
      env.info.send.during
  | .respond _ env => env.send.during
  | .incoming _ _ _ => []
  | .close _ env => env.during

/-- No record of the list is at the address. -/
def Book.Free (b : Book) (address : ℕ) : Prop := ∀ r ∈ b.calls, r.address ≠ address

/-- The status a BYE ends with. -/
def ByeEnv.status (env : ByeEnv) : PjStatus :=
  if env.endSession.status = .success ∧ env.hasMessage = true then env.send.status
  else env.endSession.status

/-- One change of the books in the course of `op`, which began with the books `b₀`. -/
inductive Move (b₀ : Book) (op : Op) (b : Book) : Book → Prop
  | signal {σ : Signal} (hσ : σ ∈ op.signals) : Move b₀ op b (b.signal σ)
  | captured {packet : Bytes} {source : SockAddr} {during : List Signal} {call : InviteCall}
      (hop : op = .receive packet source during) (hb : b = b₀)
      (hfind : (scannedCallId packet).bind b₀.find = some call) :
      Move b₀ op b (b.alter call.address fun r => r.saveDialogRoute (some source))
  | invited {command : InviteCommand} {env : SendInviteEnv} {address : ℕ}
      (hop : op = .invite command env) (hb : b = b₀) (hid : command.operationId ≠ 0)
      (hcallId : command.callId ≠ []) (hfree : b.Free address) :
      Move b₀ op b (b.push (inviteCall b.serials address command command.callId))
  | inviteFailed {command : InviteCommand} {env : SendInviteEnv} (address : ℕ)
      (hop : op = .invite command env)
      (hown : ∀ r ∈ b.calls, r.address = address → r.operationId ≠ 0) :
      Move b₀ op b (b.drop address)
  | accepted {invite : IncomingInvite} {env : Access.InviteEnv} {calloc : Option ℕ} {address : ℕ}
      (hop : op = .incoming invite env calloc) (hb : b = b₀) (hfree : b.Free address) :
      Move b₀ op b ((b.push (incomingCall b.serials address invite invite.callId)).emit
        [⟨.incomingInvite, invite.transport, 100, .success, some .invite, 0⟩])
  | restored {command : DialogCommand} {env : DialogEnv} {address : ℕ} {route : SockAddr}
      (hop : op = .dialog command env) (hkind : command.restored = true) (hb : b = b₀)
      (hid : command.operationId ≠ 0) (hcallId : command.callId ≠ []) (hfree : b.Free address) :
      Move b₀ op b ((b.push (restoredCall b.serials address command route)).begin
        ⟨b.serials, command.operationId, true, some address, false⟩)
  | ends {command : DialogCommand} {env : DialogEnv} {call : InviteCall}
      (hop : op = .dialog command env) (hkind : command.restored = false)
      (hmethod : command.method = .bye) (hb : b = b₀) (hid : command.operationId ≠ 0)
      (hfind : b.find command.callId = some call) (hsession : call.invite ≠ none)
      (hidle : call.dialogOperationId = 0) :
      Move b₀ op b (b.alter call.address fun r =>
        { r with dialogOperationId := command.operationId })
  | endFailed {command : DialogCommand} {env : DialogEnv} (address : ℕ)
      (hop : op = .dialog command env) (hkind : command.restored = false)
      (hmethod : command.method = .bye) (hfailed : env.bye.status ≠ .success) :
      Move b₀ op b (b.alter address fun r => { r with dialogOperationId := 0 })
  | informs {command : DialogCommand} {env : DialogEnv} (hop : op = .dialog command env)
      (hkind : command.restored = false) (hmethod : command.method ≠ .bye) (hb : b = b₀)
      (hid : command.operationId ≠ 0) :
      Move b₀ op b ({ b with serials := b.serials + 1 }.begin
        ⟨b.serials, command.operationId, false, none, false⟩)
  | requestFailed {command : DialogCommand} {env : DialogEnv} (serial : ℕ)
      (hop : op = .dialog command env) : Move b₀ op b (b.complete serial)
  | swept {command : CloseCommand} {env : CloseEnv} (hop : op = .close command env)
      (hfound : env.transportFound = true) (hb : b = b₀.signals env.during) :
      Move b₀ op b (b.sweep command.transport command.associationId)

/-- Any number of changes. -/
abbrev Moves (b₀ : Book) (op : Op) : Book → Book → Prop := ReflTransGen (Move b₀ op)

variable {b₀ : Book} {op : Op} {address : ℕ} {command : DialogCommand} {env : DialogEnv}

/-- Signals are moves. -/
theorem moves_signals {b : Book} {σs : List Signal} (hσs : ∀ σ ∈ σs, σ ∈ op.signals) :
    Moves b₀ op b (b.signals σs) := by
  induction σs generalizing b with
  | nil => exact .refl
  | cons σ rest ih =>
    exact .head (.signal (hσs σ List.mem_cons_self)) (ih fun τ hτ => hσs τ (List.mem_cons_of_mem σ hτ))

/-- Signals to the runtime are moves of its books. -/
theorem moves_book_signals (s : CallRuntime) {σs : List Signal}
    (hσs : ∀ σ ∈ σs, σ ∈ op.signals) : Moves b₀ op s.book (s.signals σs).book := by
  rw [book_signals]
  exact moves_signals hσs

/-- A part that is only executed under a condition. -/
theorem moves_ite {c : Prop} [Decidable c] {s s' : CallRuntime}
    (h : c → Moves b₀ op s.book s'.book) : Moves b₀ op s.book (if c then s' else s).book := by
  by_cases hc : c
  · rw [if_pos hc]
    exact h hc
  · rw [if_neg hc]

section step

variable (s : CallRuntime)

/-- An address that is not in use is free. -/
theorem free_of_calloc {s : CallRuntime} {calloc : Option ℕ}
    (h : s.calloc calloc = some address) : s.book.Free address := by
  have hnotin := (Option.filter_eq_some_iff.mp h).2
  intro r hr heq
  have hrecord : r ∈ s.records := (mem_inviteCalls.mp hr).1
  simp only [decide_eq_true_eq, List.mem_map, not_exists, not_and] at hnotin
  exact hnotin r hrecord heq

/-- What an INVITE has that is sent. -/
theorem prepareInvite_ok {command : InviteCommand} {env : SendInviteEnv} {callId : Bytes}
    (hprepare : prepareInvite s env command = .ok (address, callId)) :
    command.operationId ≠ 0 ∧ command.callId ≠ [] ∧ s.calloc env.callCalloc = some address ∧
      callId = command.callId := by
  unfold prepareInvite at hprepare
  simp only at hprepare
  split_ifs at hprepare with hbad
  simp only [not_or] at hbad
  cases hcalloc : s.calloc env.callCalloc with
  | none => simp [hcalloc] at hprepare
  | some a =>
    rw [hcalloc] at hprepare
    cases hcopy : copyView callIdCapacity (.bytes command.callId) with
    | none => simp [hcopy] at hprepare
    | some text =>
      simp only [hcopy] at hprepare
      obtain ⟨rfl, rfl⟩ := Prod.mk.inj (Except.ok.inj hprepare)
      exact ⟨hbad.1, hbad.2.2.2.2.2.1, rfl, (copyView_bytes_eq_some hcopy).1⟩

/-- Sending an INVITE is a sequence of moves. -/
theorem invite_moves (command : InviteCommand) (env : SendInviteEnv) :
    Moves s.book (.invite command env) s.book (sendInviteOnOwner s command env).2.book := by
  unfold sendInviteOnOwner
  cases hprepare : prepareInvite s env command with
  | error status => exact .refl
  | ok made =>
    obtain ⟨address, callId⟩ := made
    obtain ⟨hid, hcallId, hcalloc, rfl⟩ := prepareInvite_ok s hprepare
    have hfree := free_of_calloc hcalloc
    have hpush : Moves s.book (.invite command env) s.book
        ((s.push (inviteCall s.serials address command command.callId)).holdInviteCall address).book := by
      refine .single ?_
      show Move _ _ _ (s.push (inviteCall s.serials address command command.callId)).book
      rw [book_push rfl]
      exact .invited rfl rfl hid hcallId hfree
    have hown : ∀ σs : List Signal, ∀ r ∈ (((s.push (inviteCall s.serials address command
        command.callId)).holdInviteCall address).signals σs).book.calls,
        r.address = address → r.operationId ≠ 0 := by
      intro σs r hr haddress
      rw [book_signals] at hr
      obtain ⟨r₀, hr₀, hsame⟩ := sameCall_signals σs r hr
      change r₀ ∈ (s.push (inviteCall s.serials address command command.callId)).book.calls at hr₀
      rw [book_push rfl] at hr₀
      rw [hsame.operationId]
      rcases List.mem_cons.mp hr₀ with rfl | hold
      · exact hid
      · exact absurd (hsame.address.symm.trans haddress) (hfree r₀ hold)
    simp only [book_release]
    refine (hpush.trans (moves_ite fun _ => ?_)).trans (moves_ite fun _ => ?_)
    · exact moves_book_signals _ fun _ hσ => hσ
    · rw [book_drop]
      refine .single (.inviteFailed address rfl ?_)
      split_ifs
      · exact hown env.send.during
      · exact hown []

/-- Sending the request of an operation. -/
theorem moves_sendOperation {env' : DialogEnv} (t : CallRuntime) (serial : ℕ) (env : SendEnv)
    (hσs : ∀ σ ∈ env.during, σ ∈ (Op.dialog command env').signals) :
    Moves b₀ (.dialog command env') t.book (t.sendOperation serial env).2.book := by
  rw [book_sendOperation]
  by_cases hfailed : env.status ≠ .success
  · rw [if_pos hfailed]
    exact (moves_signals hσs).tail (.requestFailed serial rfl)
  · rw [if_neg hfailed]
    exact moves_signals hσs

/-- A restored dialog gets a record of its own. -/
theorem prepareRestored_free {env : RestoredEnv} {route : SockAddr}
    (hprepare : prepareRestored s env command = .ok (address, route)) :
    s.book.Free address := by
  unfold prepareRestored at hprepare
  simp only at hprepare
  split_ifs at hprepare
  all_goals
    cases hcalloc : s.calloc env.callCalloc with
    | none => simp [hcalloc] at hprepare
    | some a =>
      rw [hcalloc] at hprepare
      cases hinit : env.initAddress command.remoteAddress command.remotePort with
      | error status => simp [hinit, Except.map] at hprepare
      | ok address' =>
        simp only [hinit, Except.map] at hprepare
        obtain ⟨rfl, -⟩ := Prod.mk.inj (Except.ok.inj hprepare)
        exact free_of_calloc hcalloc

/-- So is a request of a restored dialog, -/
theorem restored_moves (hkind : command.restored = true) (hid : command.operationId ≠ 0)
    (hcallId : command.callId ≠ []) :
    Moves s.book (.dialog command env) s.book (sendRestored s command env.restored).2.book := by
  unfold sendRestored
  cases hprepare : prepareRestored s env.restored command with
  | error status => exact .refl
  | ok made =>
    obtain ⟨address, route⟩ := made
    have hfree := prepareRestored_free s hprepare
    have hsends : Moves s.book (.dialog command env)
        ((s.push (restoredCall s.serials address command route)).begin
          ⟨s.serials, command.operationId, true, some address, false⟩).book
        (((s.push (restoredCall s.serials address command route)).begin
          ⟨s.serials, command.operationId, true, some address, false⟩).sendOperation s.serials
          env.restored.send).2.book :=
      moves_sendOperation _ _ _ fun σ hσ => by simp [Op.signals, hσ]
    rw [book_begin rfl, book_push rfl] at hsends
    exact .head (.restored rfl hkind rfl hid hcallId hfree) hsends

/-- a BYE, -/
theorem bye_moves {call : InviteCall} (hkind : command.restored = false)
    (hmethod : command.method = .bye)
    (hid : command.operationId ≠ 0) (hfind : s.book.find command.callId = some call)
    (hsession : call.invite ≠ none) :
    Moves s.book (.dialog command env) s.book (sendBye s call command env.bye).2.book := by
  unfold sendBye
  by_cases hbusy : call.dialogOperationId ≠ 0
  · rw [if_pos hbusy]
  rw [if_neg hbusy]
  simp only [book_release]
  have hstart : Moves s.book (.dialog command env) s.book ((s.write call.address fun r =>
      { r with dialogOperationId := command.operationId }).holdInviteCall call.address).book := by
    refine .single ?_
    show Move _ _ _ (s.write call.address fun r =>
      { r with dialogOperationId := command.operationId }).book
    rw [book_write s call.address (fun r => { r with dialogOperationId := command.operationId })
      fun _ => rfl]
    exact .ends rfl hkind hmethod rfl hid hfind hsession (not_not.mp hbusy)
  generalize (s.write call.address fun r =>
    { r with dialogOperationId := command.operationId }).holdInviteCall call.address = t at hstart ⊢
  have hends : Moves s.book (.dialog command env) t.book (t.signals env.bye.endSession.during).book :=
    moves_book_signals t fun σ hσ => by simp [Op.signals, hσ]
  refine ((hstart.trans hends).trans (moves_ite fun _ => ?_)).trans (moves_ite fun hfailed => ?_)
  · exact moves_book_signals _ fun σ hσ => by simp [Op.signals, hσ]
  · rw [book_write _ call.address (fun r => { r with dialogOperationId := 0 }) fun _ => rfl]
    exact .single (.endFailed call.address rfl hkind hmethod hfailed)

/-- an INFO, -/
theorem info_moves (hkind : command.restored = false) (hmethod : command.method ≠ .bye)
    (hid : command.operationId ≠ 0) :
    Moves s.book (.dialog command env) s.book (sendInfo s command env.info).2.book := by
  unfold sendInfo
  split_ifs
  · exact .refl
  · exact .refl
  · exact .refl
  · have hsends : Moves s.book (.dialog command env) _ _ :=
      moves_sendOperation ({ s with serials := s.serials + 1 }.begin
        ⟨s.serials, command.operationId, false, none, false⟩) s.serials env.info.send
        fun σ hσ => by simp [Op.signals, hσ]
    rw [book_begin rfl] at hsends
    exact .head (.informs rfl hkind hmethod rfl hid) hsends

/-- any dialog command, -/
theorem dialog_moves (command : DialogCommand) (env : DialogEnv) :
    Moves s.book (.dialog command env) s.book (sendDialogOnOwner s command env).2.book := by
  unfold sendDialogOnOwner
  by_cases hbad : command.operationId = 0 ∨ command.callId = [] ∨ env.started = false
  · rw [if_pos hbad]
  rw [if_neg hbad]
  have hid : command.operationId ≠ 0 := (not_or.mp hbad).1
  by_cases hkind : command.restored = true
  · rw [if_pos hkind]
    exact restored_moves s hkind hid (not_or.mp (not_or.mp hbad).2).1
  rw [if_neg hkind]
  rw [Bool.not_eq_true] at hkind
  cases hfind : s.findInviteCall command.callId with
  | none => exact .refl
  | some call =>
    by_cases hsession : call.invite = none
    · simp only [if_pos hsession]
      exact .refl
    by_cases hmethod : command.method = .bye
    · simp only [if_neg hsession, if_pos hmethod]
      exact bye_moves s hkind hmethod hid hfind hsession
    · simp only [if_neg hsession, if_neg hmethod]
      exact info_moves s hkind hmethod hid

/-- a response to an INVITE, -/
theorem respond_moves (command : InviteResponseCommand) (env : RespondEnv) :
    Moves s.book (.respond command env) s.book (respondInviteOnOwner s command env).2.book := by
  unfold respondInviteOnOwner
  by_cases hbad : command.statusCode < 200 ∨ 699 < command.statusCode ∨ command.callId = [] ∨
      env.started = false
  · rw [if_pos hbad]
  rw [if_neg hbad]
  cases s.findInviteCall command.callId with
  | none => exact .refl
  | some call =>
    by_cases hnone : call.invite = none ∨ call.operationId ≠ 0
    · simp only [if_pos hnone]
      exact .refl
    by_cases hsdp : answerSdp command env ≠ .success
    · simp only [if_neg hnone, if_pos hsdp]
      exact .refl
    by_cases hanswer : env.answer ≠ .success
    · simp only [if_neg hnone, if_neg hsdp, if_pos hanswer, book_release]
      exact .refl
    · simp only [if_neg hnone, if_neg hsdp, if_neg hanswer, book_release]
      exact moves_book_signals (s.holdInviteCall call.address) fun _ hσ => hσ

/-- an INVITE from outside, -/
theorem incoming_moves (invite : IncomingInvite) (env : Access.InviteEnv) (calloc : Option ℕ) :
    Moves s.book (.incoming invite env calloc) s.book
      (handleIncomingInvite s invite env calloc).book := by
  unfold handleIncomingInvite
  split_ifs
  · exact .refl
  cases hcalloc : s.calloc calloc with
  | none => exact .refl
  | some address =>
    cases hcopy : copyView callIdCapacity (.bytes invite.callId) with
    | none => exact .refl
    | some callId =>
      obtain rfl := (copyView_bytes_eq_some hcopy).1
      refine .single ?_
      show Move _ _ _ ((s.push (incomingCall s.serials address invite invite.callId)).book.emit _)
      rw [book_push rfl]
      exact .accepted rfl rfl (free_of_calloc hcalloc)

/-- and a close. -/
theorem close_moves (command : CloseCommand) (env : CloseEnv) :
    Moves s.book (.close command env) s.book (processCloseCommand s command env).book := by
  unfold processCloseCommand
  refine moves_ite fun hfound => ?_
  rw [book_closeAssociationCalls, book_signals]
  exact (moves_signals fun _ hσ => hσ).tail (.swept rfl hfound rfl)

/-- **Whatever happens is a sequence of moves.** -/
theorem step_moves (op : Op) : Moves s.book op s.book (s.step op).book := by
  cases op with
  | signal σ =>
    have hmove : Move s.book (.signal σ) s.book (s.book.signal σ) :=
      .signal (List.mem_singleton.mpr rfl)
    rw [← book_signal] at hmove
    exact .single hmove
  | receive packet source =>
    refine .trans ?_ (moves_book_signals (s.captureInviteDialogRoute packet source) fun _ hσ => hσ)
    unfold CallRuntime.captureInviteDialogRoute
    cases hfind : (scannedCallId packet).bind s.findInviteCall with
    | none => exact .refl
    | some call =>
      rw [book_write s call.address (fun r => r.saveDialogRoute (some source)) fun r => by
        obtain ⟨route, hroute⟩ := r.saveDialogRoute_eq (some source)
        rw [hroute]]
      exact .single (.captured rfl rfl hfind)
  | invite command env => exact invite_moves s command env
  | dialog command env => exact dialog_moves s command env
  | respond command env => exact respond_moves s command env
  | incoming invite env calloc => exact incoming_moves s invite env calloc
  | close command env => exact close_moves s command env

end step

end GmvPjsip.Calls
