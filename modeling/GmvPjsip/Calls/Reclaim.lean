import GmvPjsip.Calls.Overtaking
import GmvPjsip.Lib.Ledger

/-!
# The end of a call record

The final response to the INVITE and the end of the session can come in either order, and so can the
final response to a BYE. Whichever callback comes last has to take the record out of the list.

* `Book.account id` adds up what was reported as the final response of the operation `id` and what can
  still be: no callback raises it, and a command raises it by one if the operation is its own.
* `calls_ledger`: the runtime is a ledger of final responses. `finals_le`: an operation has no more final
  responses than commands.
* `InviteCall.Spent` is a record that nothing refers to any more. `no_spent_call`: no such record is in
  the list, if every BYE was sent.
-/

namespace GmvPjsip.Calls

open GmvPjsip.Auth
open GmvPjsip.Commands
open GmvPjsip.Lib

/-! ## Definitions -/

/-- The operations the application gives. -/
def Op.operationIds : Op → List ℕ
  | .invite command _ => [command.operationId]
  | .dialog command _ => [command.operationId]
  | _ => []

/-- How many of the events are the final response to an operation. -/
def finals (id : ℕ) (events : List CallEvent) : ℕ := events.countP (CallEvent.IsFinal id ·)

/-- How many final responses a record can still report for an operation. -/
def InviteCall.owes (id : ℕ) (r : InviteCall) : ℕ :=
  (if r.operationId = id ∧ r.inviteFinalEmitted = false then 1 else 0) +
    if r.dialogOperationId = id then 1 else 0

/-- What a reaction reports of an operation, and what the record can still report after it. -/
def Reaction.account (id : ℕ) (q : Reaction) : ℕ :=
  (if q.dropped then 0 else q.call.owes id) + finals id q.events

/-- How many final responses can still be reported for an operation. -/
def Book.owed (id : ℕ) (b : Book) : ℕ :=
  (b.calls.map (InviteCall.owes id)).sum + b.operations.countP fun o => o.operationId = id

/-- What was reported of an operation, and what can still be. -/
def Book.account (id : ℕ) (b : Book) : ℕ := finals id b.events + b.owed id

/-- The session is over and PJSIP has said so; the INVITE and the BYE, if there was one, are
answered. -/
structure InviteCall.Spent (r : InviteCall) : Prop where
  disconnected : r.invite = some .disconnected
  told : r.told = true
  answered : r.inviteFinalEmitted = true
  idle : r.dialogOperationId = 0

/-- A BYE is sent. -/
def Op.ByeSent (op : Op) : Prop :=
  ∀ command env, op = .dialog command env → command.restored = false → command.method = .bye →
    env.bye.status = .success

/-! ## Final responses of one record -/

section record

variable {id : ℕ} {tx : Transaction} {rdata : Option RxData} {r : InviteCall}

theorem finals_append (events events' : List CallEvent) :
    finals id (events ++ events') = finals id events + finals id events' := List.countP_append

theorem finals_transactionEvent (tx : Transaction) (rdata : Option RxData) (id id' : ℕ) :
    finals id (transactionEvent tx rdata id') ≤ if id' = id then 1 else 0 := by
  unfold transactionEvent
  by_cases hnone : id' = 0 ∨ tx.statusCode < 100
  · rw [if_pos hnone]
    exact Nat.zero_le _
  · rw [if_neg hnone]
    by_cases hid : id' = id
    · rw [if_pos hid]
      exact List.countP_le_length
    · rw [if_neg hid]
      simp [finals, CallEvent.IsFinal, hid]

theorem finals_progress (hprogress : tx.statusCode < 200) (id' : ℕ) :
    finals id (transactionEvent tx rdata id') = 0 := by
  unfold transactionEvent
  by_cases hnone : id' = 0 ∨ tx.statusCode < 100
  · rw [if_pos hnone]
    rfl
  · rw [if_neg hnone]
    simp [finals, CallEvent.IsFinal, hprogress]

theorem finals_requestEvent : finals id (requestEvent tx rdata) = 0 := by
  refine List.countP_eq_zero.mpr fun e he => ?_
  cases rdata with
  | none => cases he
  | some rx =>
    unfold requestEvent at he
    simp only at he
    split_ifs at he
    · obtain rfl := List.mem_singleton.mp he
      simp [CallEvent.IsFinal]
    · cases he

/-- A transaction event pays what it reports out of what the record owes. -/
theorem TsxReaction.account {q : Reaction} (hid : id ≠ 0) (hreact : TsxReaction tx rdata r q) :
    q.account id ≤ r.owes id := by
  have hinvite := finals_transactionEvent tx rdata id r.operationId
  have hending := finals_transactionEvent tx rdata id r.dialogOperationId
  cases hreact with
  | request => simp [Reaction.account, finals_requestEvent]
  | repeated => simp [Reaction.account, InviteCall.owes, finals]
  | progress hkind hprogress | ending hkind hbusy hprogress =>
    simp [Reaction.account, finals_progress hprogress]
  | answered hkind hfinal hemitted | answeredLast hkind hfinal hemitted =>
    simp only [Reaction.account, InviteCall.owes, hemitted]
    grind
  | ended | endedLast =>
    simp only [Reaction.account, InviteCall.owes]
    grind
  | ignored => simp [Reaction.account, finals]

/-- What happens to a record raises what it owes by at most the operation it is given. -/
theorem Touch.account {b₀ b : Book} {op : Op} {q : Reaction} (hid : id ≠ 0)
    (htouch : Touch b₀ op b r q) :
    q.account id ≤ r.owes id ∨ b = b₀ ∧ q.account id ≤ r.owes id + op.operationIds.count id := by
  cases htouch with
  | enters | captured => exact Or.inl (by simp [Reaction.account, InviteCall.owes, finals])
  | stateChanged =>
    refine Or.inl ?_
    unfold inviteOnStateChanged
    split_ifs <;> simp [Reaction.account, InviteCall.owes, finals]
  | tsx _ _ hreact => exact Or.inl (hreact.account hid)
  | inviteFailed => exact Or.inl (by simp [Reaction.account, finals])
  | @ends command env hop hkind hmethod hb =>
    refine Or.inr ⟨hb, ?_⟩
    subst hop
    by_cases hown : command.operationId = id
    · simp [Reaction.account, InviteCall.owes, finals, Op.operationIds, hown]
    · simp [Reaction.account, InviteCall.owes, finals, hown, Nat.add_assoc]
  | endFailed =>
    refine Or.inl ?_
    simp only [Reaction.account, InviteCall.owes, finals]
    grind

end record

/-! ## At most one final response -/

section account

variable {b₀ b b' : Book} {op : Op} {id : ℕ} {pre post : List InviteCall} {r : InviteCall}
  {q : Reaction}

theorem account_splice (id : ℕ) (q : Reaction) (hcalls : b.calls = pre ++ r :: post) :
    (b.splice pre q post).account id + r.owes id = b.account id + q.account id := by
  unfold Book.account Book.owed Reaction.account Book.splice
  rw [hcalls, finals_append]
  cases q.dropped <;> simp <;> omega

/-- A new record and its event. -/
theorem account_push (r : InviteCall) (b : Book) :
    (b.push r).account id = r.owes id + b.account id := by
  simp only [Book.account, Book.owed, Book.push, List.map_cons, List.sum_cons]
  omega

theorem account_emit (events : List CallEvent) (b : Book) :
    (b.emit events).account id = b.account id + finals id events := by
  simp only [Book.account, Book.owed, Book.emit, finals_append]
  omega

theorem account_begin (o : DialogOperation) (b : Book) :
    (b.begin o).account id = b.account id + if o.operationId = id then 1 else 0 := by
  simp only [Book.account, Book.owed, Book.begin, List.countP_cons, decide_eq_true_eq]
  omega

/-- A completed operation is paid out of the list of operations. -/
theorem account_finish {o : DialogOperation} {events : List CallEvent} (ho : o ∈ b.operations)
    (hevents : LastReport o events) : (b.finish o events).account id ≤ b.account id := by
  have hpaid : finals id events ≤ if o.operationId = id then 1 else 0 := by
    rcases hevents with rfl | ⟨tx, rdata, rfl⟩
    · exact Nat.zero_le _
    · exact finals_transactionEvent tx rdata id o.operationId
  have hgone : (b.operations.filter fun o' => o'.serial ≠ o.serial).countP
      (fun o' => o'.operationId = id) + (if o.operationId = id then 1 else 0) ≤
        b.operations.countP fun o' => o'.operationId = id := by
    obtain ⟨front, rest, hsplit⟩ := List.append_of_mem ho
    have hless : ∀ operations : List DialogOperation,
        (operations.filter fun o' => o'.serial ≠ o.serial).countP (fun o' => o'.operationId = id) ≤
          operations.countP fun o' => o'.operationId = id :=
      fun operations => List.filter_sublist.countP_le
    have hfront := hless front
    have hrest := hless rest
    rw [hsplit, List.filter_append, List.filter_cons_of_neg (by simp), List.countP_append,
      List.countP_append, List.countP_cons]
    simp only [decide_eq_true_eq]
    omega
  simp only [Book.account, Book.owed, Book.finish, finals_append]
  omega

theorem account_swept (transport : SipTransport) (associationId : ℕ) :
    (b.swept transport associationId).account id ≤ b.account id := by
  have hsum : ((b.calls.filter fun r => ¬(r.transport = transport ∧ r.associationId = associationId)).map
      (InviteCall.owes id)).sum ≤ (b.calls.map (InviteCall.owes id)).sum :=
    (List.filter_sublist.map _).sum_le_sum fun _ _ => Nat.zero_le _
  simp only [Book.account, Book.owed, Book.swept]
  omega

/-- **A change raises an account by at most what the application asks for.** -/
theorem Change.account (hid : id ≠ 0) (hchange : Change b₀ op b b') : b'.account id ≤ b.account id ∨
      b = b₀ ∧ b'.account id ≤ b.account id + op.operationIds.count id := by
  cases hchange with
  | same => exact Or.inl le_rfl
  | @touched pre post r q hcalls htouch =>
    have hsplice := account_splice id q hcalls
    rcases htouch.account hid with hless | ⟨hb, hless⟩
    · left
      omega
    · exact Or.inr ⟨hb, by omega⟩
  | @invited command env address hop hb =>
    refine Or.inr ⟨hb, ?_⟩
    rw [account_push, hop]
    have howes : (inviteCall b.serials address command command.callId).owes id =
        (Op.invite command env).operationIds.count id := by
      simp [InviteCall.owes, inviteCall, Op.operationIds, List.count_cons, hid.symm]
    omega
  | @accepted invite env calloc address =>
    refine Or.inl ?_
    rw [account_emit, account_push]
    simp [InviteCall.owes, incomingCall, finals, CallEvent.IsFinal, hid.symm]
  | @restored command env address route hop hkind hb =>
    refine Or.inr ⟨hb, ?_⟩
    rw [account_begin, account_push, hop]
    simp [InviteCall.owes, restoredCall, Op.operationIds, List.count_cons, hid.symm]
  | @informs command env hop hkind hmethod hb =>
    refine Or.inr ⟨hb, ?_⟩
    rw [account_begin, hop]
    simp [Op.operationIds, List.count_cons, Book.account, Book.owed]
  | reported hmem hprogress =>
    refine Or.inl ?_
    rw [account_emit, finals_progress hprogress]
    omega
  | completed hmem hevents => exact Or.inl (account_finish hmem hevents)
  | @discarded o events pre post r hmem hevents hcalls =>
    have hfinish : (b.finish o events).account id ≤ b.account id := account_finish hmem hevents
    have hsplice := account_splice (b := b.finish o events) id ⟨r, [], true⟩ hcalls
    have hnothing : (⟨r, [], true⟩ : Reaction).account id = 0 := rfl
    exact Or.inl (by omega)
  | swept => exact Or.inl (account_swept _ _)

/-- A change only adds events. -/
theorem Change.emits (hchange : Change b₀ op b b') : b.events <+: b'.events := by
  cases hchange with
  | same | invited | restored | informs | swept => exact List.prefix_rfl
  | touched | accepted | reported | completed => exact List.prefix_append _ _
  | discarded => exact (List.prefix_append _ _).trans (List.prefix_append _ _)

/-- **The calls are a ledger of the final responses of an operation.** -/
theorem calls_ledger (hid : id ≠ 0) :
    Ledger (fun s : CallRuntime => s.book.Sound) CallRuntime.step CallRuntime.events
      (fun op => op.operationIds.count id) (fun s => s.book.owed id) (CallEvent.IsFinal id ·) :=
  Ledger.of_changes CallRuntime.book (Book.owed id) step_changes
    (fun hb hchange => hchange.sound hb) Change.emits fun hchange => hchange.account hid

/-- **An operation has no more final responses than commands.** -/
theorem finals_le (ops : List Op) (hid : id ≠ 0) :
    finals id (runCalls ops).events ≤ (ops.flatMap Op.operationIds).count id := by
  have hpays := (calls_ledger hid).run_pays (runCalls_sound []) ops
  rw [List.count_flatMap]
  exact (Nat.le_add_right _ _).trans (hpays.trans_eq (Nat.zero_add _))

end account

/-! ## No record is left behind -/

section spent

variable {b₀ b b' : Book} {op : Op}

/-- A reaction that leaves a record in the list does not leave it spent. -/
theorem Touch.not_spent {r : InviteCall} {q : Reaction} (hop : op.ByeSent) (hr : ¬r.Spent)
    (htouch : Touch b₀ op b r q) (hkept : q.dropped = false) : ¬q.call.Spent := by
  cases htouch with
  | enters => exact fun h => Bool.false_ne_true h.told
  | stateChanged =>
    unfold inviteOnStateChanged at hkept ⊢
    split_ifs at hkept ⊢ with hneeded
    rintro ⟨hover, -, hanswered, hidle⟩
    rcases hneeded with hlive | hunanswered | hbusy
    · exact hlive hover
    · exact absurd hanswered (by simp [hunanswered])
    · exact hbusy hidle
  | tsx _ _ hreact =>
    cases hreact with
    | request | progress | ending | ignored => exact hr
    | repeated => exact fun h => hr ⟨h.disconnected, h.told, h.answered, h.idle⟩
    | answered _ _ _ hlive | ended _ _ _ hlive => exact fun h => hlive h.disconnected
    | answeredLast | endedLast => cases hkept
  | captured => exact fun h => hr ⟨h.disconnected, h.told, h.answered, h.idle⟩
  | inviteFailed => cases hkept
  | ends _ _ _ _ hid => exact fun h => hid h.idle
  | endFailed hdialog hkind hmethod hfailed => exact absurd (hop _ _ hdialog hkind hmethod) hfailed

theorem Change.no_spent (hop : op.ByeSent) (hI : ∀ r ∈ b.calls, ¬r.Spent)
    (hchange : Change b₀ op b b') : ∀ r ∈ b'.calls, ¬r.Spent := by
  cases hchange with
  | same | reported | informs => exact hI
  | completed => exact hI
  | touched hcalls htouch =>
    intro r hr
    rcases mem_splice_calls hcalls hr with ⟨rfl, hkept⟩ | hold
    · exact htouch.not_spent hop (hI _ (by simp [hcalls])) hkept
    · exact hI r hold
  | invited | accepted | restored =>
    intro r hr
    rcases List.mem_cons.mp hr with rfl | hold
    · exact fun h => Bool.false_ne_true h.told
    · exact hI r hold
  | discarded hmem hevents hcalls =>
    intro r hr
    rcases mem_splice_calls hcalls hr with ⟨-, hkept⟩ | hold
    · cases hkept
    · exact hI r hold
  | swept => exact fun r hr => hI r (List.mem_of_mem_filter hr)

/-- **A record that nothing refers to is not in the list.** -/
theorem no_spent_call (ops : List Op) (hops : ∀ op ∈ ops, op.ByeSent) :
    ∀ r ∈ (runCalls ops).inviteCalls, ¬r.Spent := by
  have hsent : Throughout (fun _ op => op.ByeSent) ops := fun pre op post hsplit =>
    hops op (by simp [hsplit])
  exact runCalls_invariant (I := fun b => ∀ r ∈ b.calls, ¬r.Spent) hsent
    (fun _ hr => absurd hr List.not_mem_nil) fun _ _ _ _ hop _ _ _ hI hchange => hchange.no_spent hop hI

end spent

end GmvPjsip.Calls
