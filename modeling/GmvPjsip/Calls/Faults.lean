import GmvPjsip.Calls.Reclaim

/-!
# Commands that fail

A handler that fails takes back what it put into the runtime, also when PJSIP called back before the
failing call returned.

* `Book.Confined` says where an operation can still be reported from. Signals do not spread it, and
  signals that are no final response to the operation do not report one: `signals_confined`,
  `signals_silent`.
* `free_of_cleanupPending`: a record that was taken out of the list while its handler held it leaves no
  other one at its address.
* `failed_settles`: after a failed command its operation can no longer be reported, and it was reported
  only if PJSIP answered the request before the failing call returned, `Op.Answered`.
* `calls_no_faults`: the handlers and callbacks of calls report no fault; that is left to the dispatcher.
-/

namespace GmvPjsip.Calls

open GmvPjsip.Auth
open GmvPjsip.Commands
open GmvPjsip.Lib

/-! ## Definitions -/

/-- The report that the operation `id` failed. -/
def CallEvent.IsFault (id : ℕ) (e : CallEvent) : Prop :=
  e.eventType = .runtimeFault ∧ e.operationId = id

instance (id : ℕ) : DecidablePred (CallEvent.IsFault id) := fun _ => inferInstanceAs (Decidable (_ ∧ _))

/-- What the dispatcher gets back from the handler of a command.
Source: `shim_command_dispatch.inc` -/
def Op.status (s : CallRuntime) : Op → Option PjStatus
  | .invite command env => some (sendInviteOnOwner s command env).1
  | .dialog command env => some (sendDialogOnOwner s command env).1
  | .respond command env => some (respondInviteOnOwner s command env).1
  | _ => none

/-- The operation `id` is not in the books. -/
structure Book.Unseen (id : ℕ) (b : Book) : Prop where
  calls : ∀ r ∈ b.calls, r.operationId ≠ id ∧ r.dialogOperationId ≠ id
  operations : ∀ o ∈ b.operations, o.operationId ≠ id

/-- What can report an operation: the records of the list and the operations of the module. -/
def Book.items (b : Book) : List (InviteCall ⊕ DialogOperation) :=
  b.calls.map .inl ++ b.operations.map .inr

/-- How many final responses one of them can still report. -/
def owesOf (id : ℕ) : InviteCall ⊕ DialogOperation → ℕ
  | .inl r => r.owes id
  | .inr o => if o.operationId = id then 1 else 0

/-- The operation `id` can be reported only from records that meet `P` and operations that meet `Q`. -/
abbrev Book.Confined (id : ℕ) (P : InviteCall → Prop) (Q : DialogOperation → Prop) (b : Book) : Prop :=
  Lib.Confined Book.items (owesOf id) (Sum.elim P Q) b

/-- What holds of a record holds of it after a callback: its call is the same, and no callback gives it a
BYE. -/
def Stable (P : InviteCall → Prop) : Prop :=
  ∀ r r' : InviteCall, r.SameCall r' →
    (r'.dialogOperationId = r.dialogOperationId ∨ r'.dialogOperationId = 0) → P r → P r'

/-- PJSIP reports a final response to the INVITE of a session. -/
def Signal.AnswersInvite (session : ℕ) : Signal → Prop
  | .inviteTsx n tx _ => n = session ∧ tx.IsInvite ∧ 200 ≤ tx.statusCode
  | _ => False

/-- PJSIP reports a final response to a BYE or CANCEL of a session. -/
def Signal.AnswersEnding (session : ℕ) : Signal → Prop
  | .inviteTsx n tx _ => n = session ∧ tx.IsEnding ∧ 200 ≤ tx.statusCode
  | _ => False

/-- PJSIP reports a final response to a request that carries an operation of the module. -/
def Signal.AnswersRequest (serial : ℕ) : Signal → Prop
  | .operationTsx n tx _ => n = serial ∧ 200 ≤ tx.statusCode
  | _ => False

/-- A signal is the final response that the record `r` reports to the operation `id`. -/
def Signal.Answers (id : ℕ) (r : InviteCall) (σ : Signal) : Prop :=
  σ.AnswersInvite r.serial ∧ r.operationId = id ∨ σ.AnswersEnding r.serial ∧ r.dialogOperationId = id

/-- An INVITE gets as far as being sent, and PJSIP answers it before the send returns. -/
def InviteAnswered (s : CallRuntime) (command : InviteCommand) (env : SendInviteEnv) : Prop :=
  (∃ made, prepareInvite s env command = .ok made) ∧ firstFailure [env.invite,
      setSubscriptionBody env.bodyPool (ascii "application/sdp") command.sdp] = .success ∧
    ∃ σ ∈ env.send.during, σ.AnswersInvite s.serials

/-- A restored request gets as far as being sent, and PJSIP answers it before the send returns. -/
def RestoredAnswered (s : CallRuntime) (command : DialogCommand) (env : RestoredEnv) : Prop :=
  (∃ made, prepareRestored s env command = .ok made) ∧ ∃ σ ∈ env.send.during, σ.AnswersRequest s.serials

/-- PJSIP answers a BYE before the call that ends the session or the send returns. The send is made only
if the session could be ended and gave a message. -/
def ByeAnswered (call : InviteCall) (env : ByeEnv) : Prop :=
  call.dialogOperationId = 0 ∧ ((∃ σ ∈ env.endSession.during, σ.AnswersEnding call.serial) ∨
      (env.endSession.status = .success ∧ env.hasMessage = true) ∧
        ∃ σ ∈ env.send.during, σ.AnswersEnding call.serial)

/-- An INFO gets as far as being sent, and PJSIP answers it before the send returns. -/
def InfoAnswered (s : CallRuntime) (command : DialogCommand) (env : InfoEnv) : Prop :=
  (command.method = .info ∧ command.contentType ≠ [] ∧ command.body ≠ [] ∧
      isMediaType command.contentType = true) ∧
    env.createRequest = .success ∧ env.bodyCreate = true ∧ env.operationCalloc = true ∧
    ∃ σ ∈ env.send.during, σ.AnswersRequest s.serials

/-- The request of an in-dialog command is answered before the call that sends it returns. -/
def DialogAnswered (s : CallRuntime) (command : DialogCommand) (env : DialogEnv) : Prop :=
  (command.callId ≠ [] ∧ env.started = true) ∧
    if command.restored then RestoredAnswered s command env.restored
    else ∃ call, s.findInviteCall command.callId = some call ∧ call.invite ≠ none ∧
      if command.method = .bye then ByeAnswered call env.bye else InfoAnswered s command env.info

/-- PJSIP answers the request of a command before the call that sends it returns: among the signals it
gives there is a final response to that request. -/
def Op.Answered (s : CallRuntime) : Op → Prop
  | .invite command env => InviteAnswered s command env
  | .dialog command env => DialogAnswered s command env
  | _ => False

/-- Nothing is left of the operation `id`: it can no longer be reported, and unless it was answered it was
not. -/
def Book.Settles (id : ℕ) (b : Book) (answered : Prop) (b' : Book) : Prop :=
  b'.owed id = 0 ∧ (¬answered → finals id b'.events = finals id b.events)

/-! ## Where an operation is reported from -/

variable {r : InviteCall} {q : Reaction} {b : Book} {command : DialogCommand}

section confined

variable {b : Book} {id : ℕ} {P : InviteCall → Prop} {Q : DialogOperation → Prop}

/-- Confinement, for records and operations apart. -/
theorem confined_iff : b.Confined id P Q ↔ (∀ r ∈ b.calls, r.owes id ≠ 0 → P r) ∧
    ∀ o ∈ b.operations, o.operationId = id → Q o := by
  constructor
  · intro h
    refine ⟨fun r hr howes => h (.inl r) (by simp [Book.items, hr]) howes, fun o ho hown => ?_⟩
    exact h (.inr o) (by simp [Book.items, ho]) (by simp [owesOf, hown])
  · rintro ⟨hcalls, hoperations⟩ i hi howes
    rcases List.mem_append.mp hi with hcall | hoperation
    · obtain ⟨r, hr, rfl⟩ := List.mem_map.mp hcall
      exact hcalls r hr howes
    · obtain ⟨o, ho, rfl⟩ := List.mem_map.mp hoperation
      exact hoperations o ho (by simpa [owesOf] using howes)

/-- Where no record and no operation can report anything, nothing is owed. -/
theorem owed_eq_zero (hcalls : ∀ r ∈ b.calls, r.owes id = 0)
    (hoperations : ∀ o ∈ b.operations, o.operationId ≠ id) : b.owed id = 0 := by
  have hsum : (b.calls.map (InviteCall.owes id)).sum = 0 := sum_owes_eq_zero.mpr hcalls
  have hcount : b.operations.countP (fun o => o.operationId = id) = 0 :=
    List.countP_eq_zero.mpr fun o ho hid => hoperations o ho (of_decide_eq_true hid)
  rw [Book.owed, hsum, hcount]

/-- A record that does not name an operation owes it nothing. -/
theorem Book.Unseen.owes (h : b.Unseen id) (hr : r ∈ b.calls) : r.owes id = 0 := by
  obtain ⟨hinvite, hending⟩ := h.calls r hr
  simp [InviteCall.owes, hinvite, hending]

/-- Nothing is owed to an operation the books do not name. -/
theorem Book.Unseen.owed (h : b.Unseen id) : b.owed id = 0 :=
  owed_eq_zero (fun _ hr => h.owes hr) h.operations

/-- Books that never took it up have settled it. -/
theorem Book.Unseen.settles (h : b.Unseen id) (answered : Prop) : b.Settles id answered b :=
  ⟨h.owed, fun _ => rfl⟩

/-- An answer may be described more weakly. -/
theorem Book.Settles.imp {b' : Book} {p q : Prop} (h : b.Settles id p b') (himp : p → q) :
    b.Settles id q b' := ⟨h.1, fun hquiet => h.2 fun hp => hquiet (himp hp)⟩

/-- A record gets a BYE only from a command for one. -/
theorem Touch.ending {b₀ : Book} {op : Op} (htouch : Touch b₀ op b r q) :
    (q.call.dialogOperationId = r.dialogOperationId ∨ q.call.dialogOperationId = 0) ∨
      q.call.dialogOperationId ∈ op.operationIds := by
  cases htouch with
  | enters | captured | inviteFailed => exact .inl (.inl rfl)
  | stateChanged =>
    refine .inl (.inl ?_)
    unfold inviteOnStateChanged
    split_ifs <;> rfl
  | tsx _ _ hreact =>
    cases hreact with
    | ended | endedLast => exact .inl (.inr rfl)
    | _ => exact .inl (.inl rfl)
  | ends hdialog =>
    subst hdialog
    exact .inr (List.mem_singleton_self _)
  | endFailed => exact .inl (.inr rfl)

/-- Books whose operations were there, and whose records come from records there were. -/
theorem descends_of {b' : Book}
    (hcalls : ∀ r' ∈ b'.calls, r'.owes id ≠ 0 → ∃ r ∈ b.calls, r.owes id ≠ 0 ∧ (P r → P r'))
    (hoperations : b'.operations ⊆ b.operations) :
    Descends Book.items (owesOf id) (Sum.elim P Q) b b' := by
  intro i hi howes
  rcases List.mem_append.mp hi with hcall | hoperation
  · obtain ⟨r', hr', rfl⟩ := List.mem_map.mp hcall
    obtain ⟨r, hr, howed, hP⟩ := hcalls r' hr' howes
    exact ⟨.inl r, by simp [Book.items, hr], howed, hP⟩
  · obtain ⟨o, ho, rfl⟩ := List.mem_map.mp hoperation
    exact ⟨.inr o, by simp [Book.items, hoperations ho], howes, fun h => h⟩

/-- What a signal leaves in the books comes from what there was. -/
theorem signal_descends (hid : id ≠ 0) (hP : Stable P) (σ : Signal) (hb : b.Sound) :
    Descends Book.items (owesOf id) (Sum.elim P Q) b (b.signal σ) := by
  have hmove : Move b (.signal σ) b (b.signal σ) := .signal (List.mem_singleton.mpr rfl)
  have hchange := hmove.change hb
  have hsame : ∀ r ∈ b.calls, r.owes id ≠ 0 → ∃ r' ∈ b.calls, r'.owes id ≠ 0 ∧ (P r' → P r) :=
    fun r hr howes => ⟨r, hr, howes, fun h => h⟩
  generalize b.signal σ = b' at hchange
  cases hchange with
  | same | reported => exact descends_of hsame (List.Subset.refl _)
  | completed => exact descends_of hsame fun o ho => List.mem_of_mem_filter ho
  | @touched pre post r q hcalls htouch =>
    refine descends_of (fun r' hr' howes => ?_) (List.Subset.refl _)
    rcases mem_splice_calls hcalls hr' with ⟨rfl, hkept⟩ | hold
    · have hless : q.account id ≤ r.owes id := by
        rcases htouch.account hid with hless | ⟨-, hless⟩
        · exact hless
        · simpa [Op.operationIds] using hless
      have hstays : q.call.owes id ≤ q.account id := by simp [Reaction.account, hkept]
      exact ⟨r, by simp [hcalls], by omega,
        hP r q.call htouch.sameCall (htouch.ending.resolve_right List.not_mem_nil)⟩
    · exact hsame r' hold howes
  | discarded hmem hevents hcalls =>
    refine descends_of (fun r' hr' howes => ?_) fun o ho => List.mem_of_mem_filter ho
    rcases mem_splice_calls hcalls hr' with ⟨-, hkept⟩ | hold
    · cases hkept
    · exact hsame r' hold howes
  | invited hop | accepted hop | restored hop | informs hop | swept hop => cases hop

/-- An operation stays where it is while signals come. -/
theorem signals_confined (hb : b.Sound) (hid : id ≠ 0) (hP : Stable P) (h : b.Confined id P Q)
    (σs : List Signal) : (b.signals σs).Confined id P Q :=
  h.run (fun σ hb => sound_signal hb σ) (fun σ hb => signal_descends hid hP σ hb) hb σs

/-- A callback reports a final response to the operation of its record only if it is one. -/
theorem TsxReaction.silent {tx : Transaction} {rdata : Option RxData} (hid : id ≠ 0)
    (hreact : TsxReaction tx rdata r q)
    (h : r.owes id ≠ 0 → ¬(Signal.inviteTsx r.serial tx rdata).Answers id r) :
    finals id q.events = 0 := by
  have haccount := hreact.account hid
  by_cases howes : r.owes id = 0
  · unfold Reaction.account at haccount
    omega
  have hquiet := h howes
  cases hreact with
  | request => exact finals_requestEvent
  | repeated | ignored => rfl
  | progress hkind hprogress | ending hkind hbusy hprogress => exact finals_progress hprogress _
  | answered hkind hfinal | answeredLast hkind hfinal =>
    have hother : r.operationId ≠ id := fun hown => hquiet (.inl ⟨⟨rfl, hkind, hfinal⟩, hown⟩)
    have hpaid := finals_transactionEvent tx rdata id r.operationId
    rw [if_neg hother] at hpaid
    exact Nat.le_zero.mp hpaid
  | ended hkind hbusy hfinal | endedLast hkind hbusy hfinal =>
    have hother : r.dialogOperationId ≠ id := fun hown => hquiet (.inr ⟨⟨rfl, hkind, hfinal⟩, hown⟩)
    have hpaid := finals_transactionEvent tx rdata id r.dialogOperationId
    rw [if_neg hother] at hpaid
    exact Nat.le_zero.mp hpaid

/-- A signal reports a final response only if it is one, to an operation that somebody can report. -/
theorem signal_silent {σ : Signal} (hb : b.Sound) (hid : id ≠ 0)
    (hcalls : ∀ r ∈ b.calls, r.owes id ≠ 0 → ¬σ.Answers id r)
    (hoperations : ∀ o ∈ b.operations, o.operationId = id → ¬σ.AnswersRequest o.serial) :
    finals id (b.signal σ).events = finals id b.events := by
  have hreact : ∀ session (f : InviteCall → Reaction), (∀ r : InviteCall, r.SameCall (f r).call) →
      (∀ r ∈ b.calls, r.serial = session → finals id (f r).events = 0) →
      finals id (b.react session f).events = finals id b.events := by
    intro session f hf hquiet
    rcases react_split hb hf session with ⟨-, hsame⟩ | ⟨pre, r, post, hsplit, hown, -, heq⟩
    · rw [hsame]
    · have hnone := hquiet r (by simp [hsplit]) hown
      rw [heq]
      show finals id (b.events ++ (f r).events) = _
      rw [finals_append, hnone, Nat.add_zero]
  cases σ with
  | enters session => exact hreact session _ (fun _ => ⟨rfl, rfl, rfl, rfl, rfl, rfl⟩) fun _ _ _ => rfl
  | stateChanged session =>
    refine hreact session _ sameCall_inviteOnStateChanged fun r _ _ => ?_
    unfold inviteOnStateChanged
    split_ifs <;> rfl
  | inviteTsx session tx rdata =>
    refine hreact session _ (sameCall_inviteOnTsxStateChanged tx rdata) fun r hr hown => ?_
    subst hown
    exact (inviteOnTsxStateChanged_spec tx rdata r).silent hid (hcalls r hr)
  | operationTsx serial tx rdata =>
    show finals id (b.onTsxState serial tx rdata).events = _
    unfold Book.onTsxState
    cases hfind : b.operation serial with
    | none => rfl
    | some o =>
      have hmem : o ∈ b.operations := List.mem_of_find?_eq_some hfind
      have hserial : o.serial = serial := by simpa using List.find?_some hfind
      have hnone : finals id (transactionEvent tx rdata o.operationId) = 0 := by
        by_cases hfinal : 200 ≤ tx.statusCode
        · have hother : o.operationId ≠ id := fun hown =>
            hoperations o hmem hown ⟨hserial.symm, hfinal⟩
          have hpaid := finals_transactionEvent tx rdata id o.operationId
          rw [if_neg hother] at hpaid
          exact Nat.le_zero.mp hpaid
        · exact finals_progress (Nat.not_le.mp hfinal) _
      have hevents : ∀ b' : Book, b'.events = b.events ++ transactionEvent tx rdata o.operationId →
          finals id b'.events = finals id b.events := by
        intro b' heq
        rw [heq, finals_append, hnone, Nat.add_zero]
      simp only
      split_ifs
      · exact hevents _ (events_complete _ serial)
      · exact hevents _ rfl

/-- **Signals that are no final response to the operation do not report one.** -/
theorem signals_silent (hb : b.Sound) (hid : id ≠ 0) (hP : Stable P) (h : b.Confined id P Q)
    {σs : List Signal}
    (hσs : ∀ σ ∈ σs, (∀ r, P r → ¬σ.Answers id r) ∧ ∀ o, Q o → ¬σ.AnswersRequest o.serial) :
    finals id (b.signals σs).events = finals id b.events := by
  refine h.run_silent (fun σ hb => sound_signal hb σ) (fun σ hb => signal_descends hid hP σ hb) ?_ hb
    hσs
  rintro b σ hb hconfined ⟨hcalls, hoperations⟩
  obtain ⟨hP, hQ⟩ := confined_iff.mp hconfined
  exact signal_silent hb hid (fun r hr howes => hcalls r (hP r hr howes))
    fun o ho hown => hoperations o (hQ o ho hown)

end confined

/-! ## Addresses -/

section addresses

variable {s : CallRuntime} {pointer : ℕ}

/-- A write moves no record. -/
theorem addresses_write (pointer : ℕ) {f : InviteCall → InviteCall}
    (hf : ∀ r, (f r).address = r.address) :
    (s.write pointer f).records.map InviteCall.address = s.records.map InviteCall.address := by
  simp only [CallRuntime.write, List.map_map]
  refine List.map_congr_left fun r _ => ?_
  by_cases hr : r.address = pointer
  · simp [hr, hf]
  · simp [hr]

/-- A record that is unlinked stays where it is. -/
theorem unlinked_address {held : Bool} {r' : InviteCall} (h : r.unlinked held pointer = some r') :
    r'.address = r.address := by
  unfold InviteCall.unlinked at h
  split_ifs at h <;> rw [← Option.some.inj h]

/-- A removal frees addresses at most. -/
theorem addresses_remove : ((s.removeInviteCall pointer).records.map InviteCall.address).Sublist
    (s.records.map InviteCall.address) := by
  simp only [CallRuntime.removeInviteCall]
  induction s.records with
  | nil => exact List.Sublist.slnil
  | cons r rest ih =>
    rw [List.filterMap_cons]
    cases hunlinked : r.unlinked (pointer ∈ s.held) pointer with
    | none => exact ih.cons _
    | some r' =>
      rw [List.map_cons, List.map_cons, unlinked_address hunlinked]
      exact ih.cons_cons _

/-- So does a reaction. -/
theorem addresses_react {f : InviteCall → Reaction} (hf : ∀ r : InviteCall, r.SameCall (f r).call)
    (session : ℕ) : ((s.react session f).records.map InviteCall.address).Sublist
      (s.records.map InviteCall.address) := by
  unfold CallRuntime.react
  cases s.inviteCallFromSession session with
  | none => exact List.Sublist.refl _
  | some call =>
    have hwritten := addresses_write (s := s) call.address (f := fun r => (f r).call)
      fun r => (hf r).address
    rw [← hwritten]
    by_cases hdropped : (f call).dropped = true
    · simp only [if_pos hdropped]
      exact addresses_remove
    · simp only [if_neg hdropped]
      exact List.Sublist.refl _

/-- So does the end of an operation. -/
theorem addresses_complete (serial : ℕ) :
    ((s.completeDialogOperation serial).records.map InviteCall.address).Sublist
      (s.records.map InviteCall.address) := by
  unfold CallRuntime.completeDialogOperation
  cases s.operation serial with
  | none => exact List.Sublist.refl _
  | some o =>
    cases hpointer : o.restoredCall with
    | none =>
      simp only [hpointer]
      exact List.Sublist.refl _
    | some pointer =>
      simp only [hpointer]
      exact addresses_remove

/-- A signal allocates nothing. -/
theorem addresses_signal (σ : Signal) : ((s.signal σ).records.map InviteCall.address).Sublist
    (s.records.map InviteCall.address) := by
  cases σ with
  | enters session => exact addresses_react (fun _ => ⟨rfl, rfl, rfl, rfl, rfl, rfl⟩) session
  | stateChanged session => exact addresses_react sameCall_inviteOnStateChanged session
  | inviteTsx session tx rdata =>
    exact addresses_react (sameCall_inviteOnTsxStateChanged tx rdata) session
  | operationTsx serial tx rdata =>
    show ((s.onTsxState serial tx rdata).records.map InviteCall.address).Sublist _
    unfold CallRuntime.onTsxState
    cases s.operation serial with
    | none => exact List.Sublist.refl _
    | some o =>
      simp only
      split_ifs
      · exact addresses_complete (s := s.emit _) serial
      · exact List.Sublist.refl _

/-- So do all signals of a call of PJSIP. -/
theorem addresses_signals (σs : List Signal) :
    ((s.signals σs).records.map InviteCall.address).Sublist (s.records.map InviteCall.address) := by
  induction σs generalizing s with
  | nil => exact List.Sublist.refl _
  | cons σ rest ih => exact ih.trans (addresses_signal σ)

/-- Where one record is, a record that was taken out of the list leaves none in it. -/
theorem free_of_cleanupPending (hone : (s.records.map InviteCall.address).count pointer ≤ 1)
    (h : s.cleanupPending pointer = true) : s.book.Free pointer := by
  obtain ⟨r, hr, hpending⟩ := List.any_eq_true.mp h
  rw [Bool.and_eq_true, decide_eq_true_eq] at hpending
  intro r' hr' haddress
  obtain ⟨hrecord, hlisted⟩ := mem_inviteCalls.mp hr'
  have hne : r ≠ r' := fun heq => by
    rw [heq, hlisted] at hpending
    cases hpending.2
  obtain ⟨front, rest, hsplit⟩ := List.append_of_mem hr
  have hother : pointer ∈ (front ++ rest).map InviteCall.address := by
    rw [hsplit, List.mem_append, List.mem_cons] at hrecord
    refine List.mem_map.mpr ⟨r', ?_, haddress⟩
    rw [List.mem_append]
    tauto
  have hcount := List.count_pos_iff.mpr hother
  rw [hsplit, List.map_append, List.count_append, List.map_cons, hpending.1, List.count_cons_self]
    at hone
  rw [List.map_append, List.count_append] at hcount
  omega

end addresses

/-! ## Failed commands -/

section failed

variable (s : CallRuntime) {id : ℕ}

/-- A write to one record keeps the books sound. -/
theorem sound_alter (hb : b.Sound) (pointer : ℕ) {f : InviteCall → InviteCall}
    (haddress : ∀ r, (f r).address = r.address) (hserial : ∀ r, (f r).serial = r.serial) :
    (b.alter pointer f).Sound := by
  rcases free_or_split b pointer with hfree | ⟨pre, r, post, hcalls, rfl⟩
  · rw [alter_free hfree]
    exact hb
  · rw [alter_split hb hcalls]
    exact sound_splice hb hcalls (haddress r) (hserial r)

/-- The record at the only address from which an operation can be reported is gone. -/
theorem owed_of_free {address : ℕ} {P : InviteCall → Prop} (hP : ∀ r, P r → r.address = address)
    (h : b.Confined id P fun _ => False)
    (hfree : b.Free address) : b.owed id = 0 := by
  obtain ⟨hcalls, hoperations⟩ := confined_iff.mp h
  refine owed_eq_zero (fun r hr => ?_) hoperations
  by_contra howes
  exact hfree r hr (hP r (hcalls r hr howes))

/-- It is taken out of the list. -/
theorem owed_drop {address : ℕ} {P : InviteCall → Prop} (hP : ∀ r, P r → r.address = address)
    (h : b.Confined id P fun _ => False) :
    (b.drop address).owed id = 0 := by
  obtain ⟨hcalls, hoperations⟩ := confined_iff.mp h
  refine owed_eq_zero (fun r' hr' => ?_) hoperations
  obtain ⟨haltered, hother⟩ := List.mem_filter.mp hr'
  rw [decide_eq_true_eq] at hother
  obtain ⟨r, hr, rfl⟩ := List.mem_map.mp haltered
  by_cases hown : r.address = address
  · rw [if_pos hown] at hother
    exact absurd hown hother
  · rw [if_neg hown]
    by_contra howes
    exact hown (hP r (hcalls r hr howes))

/-- An INVITE that fails leaves no record. -/
theorem invite_failed {command : InviteCommand} {env : SendInviteEnv} (hs : s.book.Sound)
    (hid : command.operationId ≠ 0) (hfresh : s.book.Unseen command.operationId)
    (hfailed : (sendInviteOnOwner s command env).1 ≠ .success) :
    s.book.Settles command.operationId (InviteAnswered s command env)
      (sendInviteOnOwner s command env).2.book := by
  unfold sendInviteOnOwner at hfailed ⊢
  cases hprepare : prepareInvite s env command with
  | error status => exact hfresh.settles _
  | ok made =>
    obtain ⟨address, callId⟩ := made
    obtain ⟨-, -, hcalloc, rfl⟩ := prepareInvite_ok s hprepare
    rw [hprepare] at hfailed
    simp only at hfailed
    simp only [book_release]
    generalize hmade : firstFailure [env.invite,
      setSubscriptionBody env.bodyPool (ascii "application/sdp") command.sdp] = made at hfailed ⊢
    generalize ht : (s.push (inviteCall s.serials address command command.callId)).holdInviteCall
      address = t
    have hbook : t.book = s.book.push (inviteCall s.serials address command command.callId) := by
      rw [← ht]
      exact book_push rfl
    -- the operation can be reported only by its own record, before and after signals
    let Own : InviteCall → Prop := fun r =>
      r.address = address ∧ r.serial = s.serials ∧ r.dialogOperationId ≠ command.operationId
    have hstable : Stable Own := by
      rintro r r' hsame hending ⟨haddress, hserial, hother⟩
      refine ⟨hsame.address.trans haddress, hsame.serial.trans hserial, ?_⟩
      rcases hending with hkept | hnone
      · rwa [hkept]
      · rw [hnone]
        exact hid.symm
    have hconfined : t.book.Confined command.operationId Own fun _ => False := by
      rw [hbook]
      refine confined_iff.mpr ⟨fun r hr howes => ?_, hfresh.operations⟩
      rcases List.mem_cons.mp hr with rfl | hold
      · exact ⟨rfl, rfl, hid.symm⟩
      · exact absurd (hfresh.owes hold) howes
    have hsound : t.book.Sound := by
      rw [hbook]
      exact sound_push hs rfl (free_of_calloc hcalloc)
    have hone : (t.records.map InviteCall.address).count address ≤ 1 := by
      have hnotin := (Option.filter_eq_some_iff.mp hcalloc).2
      rw [decide_eq_true_eq] at hnotin
      rw [← ht]
      simp [CallRuntime.holdInviteCall, CallRuntime.push, inviteCall, List.count_eq_zero.mpr hnotin]
    have hsignals : (if made = .success then t.signals env.send.during else t) =
        t.signals (if made = .success then env.send.during else []) := by
      split_ifs <;> rfl
    have hevents : t.book.events = s.book.events := by rw [hbook]; rfl
    rw [hsignals]
    generalize hgiven : (if made = .success then env.send.during else []) = σs
    have hlast : (t.signals σs).book.Confined command.operationId Own fun _ => False := by
      rw [book_signals]
      exact signals_confined hsound hid hstable hconfined σs
    have hsilent : ¬InviteAnswered s command env →
        finals command.operationId (t.signals σs).book.events =
          finals command.operationId s.book.events := by
      intro hquiet
      rw [book_signals, ← hevents]
      refine signals_silent hsound hid hstable hconfined fun σ hσ =>
        ⟨?_, fun _ hnone => hnone.elim⟩
      rintro r ⟨-, hserial, hother⟩ (⟨hanswer, -⟩ | ⟨-, hown⟩)
      · by_cases hsends : made = .success
        · rw [if_pos hsends] at hgiven
          exact hquiet ⟨⟨_, hprepare⟩, hmade.trans hsends, σ, hgiven ▸ hσ, hserial ▸ hanswer⟩
        · rw [if_neg hsends] at hgiven
          rw [← hgiven] at hσ
          cases hσ
      · exact hother hown
    by_cases hpending : (t.signals σs).cleanupPending address = true
    · rw [if_neg (by simp [hpending])]
      exact ⟨owed_of_free (fun r hr => hr.1) hlast (free_of_cleanupPending
        (((addresses_signals σs).count_le address).trans hone) hpending), hsilent⟩
    · rw [if_pos ⟨hfailed, Bool.not_eq_true _ ▸ hpending⟩, book_drop]
      exact ⟨owed_drop (fun r hr => hr.1) hlast, hsilent⟩

/-- A BYE that fails is taken back. -/
theorem bye_failed {call : InviteCall} {env : ByeEnv} (hs : s.book.Sound)
    (hcall : call ∈ s.book.calls) (hid : command.operationId ≠ 0)
    (hfresh : s.book.Unseen command.operationId)
    (hfailed : (sendBye s call command env).1 ≠ .success) :
    s.book.Settles command.operationId (ByeAnswered call env) (sendBye s call command env).2.book := by
  unfold sendBye at hfailed ⊢
  by_cases hbusy : call.dialogOperationId ≠ 0
  · rw [if_pos hbusy]
    exact hfresh.settles _
  rw [if_neg hbusy] at hfailed ⊢
  simp only at hfailed
  simp only [book_release]
  rw [if_pos hfailed, book_write _ call.address (fun r => { r with dialogOperationId := 0 })
    fun _ => rfl]
  generalize ht : (s.write call.address fun r =>
    { r with dialogOperationId := command.operationId }).holdInviteCall call.address = t
  have hbook : t.book = s.book.alter call.address fun r =>
      { r with dialogOperationId := command.operationId } := by
    rw [← ht]
    exact book_write s call.address _ fun _ => rfl
  let Own : InviteCall → Prop := fun r =>
    r.address = call.address ∧ r.serial = call.serial ∧ r.operationId ≠ command.operationId
  have hstable : Stable Own := fun r r' hsame _ hr =>
    ⟨hsame.address.trans hr.1, hsame.serial.trans hr.2.1, hsame.operationId ▸ hr.2.2⟩
  have hconfined : t.book.Confined command.operationId Own fun _ => False := by
    rw [hbook]
    refine confined_iff.mpr ⟨fun r' hr' howes => ?_, hfresh.operations⟩
    obtain ⟨r, hr, rfl⟩ := List.mem_map.mp hr'
    by_cases hown : r.address = call.address
    · obtain rfl := List.inj_on_of_nodup_map hs.addresses hr hcall hown
      rw [if_pos rfl]
      exact ⟨rfl, rfl, (hfresh.calls r hr).1⟩
    · rw [if_neg hown] at howes
      exact absurd (hfresh.owes hr) howes
  have hsound : t.book.Sound := by
    rw [hbook]
    exact sound_alter hs call.address (fun _ => rfl) fun _ => rfl
  have hevents : t.book.events = s.book.events := by rw [hbook]; rfl
  have hsignals : (if env.endSession.status = .success ∧ env.hasMessage = true then
      (t.signals env.endSession.during).signals env.send.during
      else t.signals env.endSession.during) = t.signals (env.endSession.during ++
        if env.endSession.status = .success ∧ env.hasMessage = true then env.send.during else []) := by
    split_ifs
    · exact List.foldl_append.symm
    · rw [List.append_nil]
  rw [hsignals]
  generalize hgiven : (env.endSession.during ++
    if env.endSession.status = .success ∧ env.hasMessage = true then env.send.during else []) = σs
  have hlast : (t.signals σs).book.Confined command.operationId Own fun _ => False := by
    rw [book_signals]
    exact signals_confined hsound hid hstable hconfined σs
  obtain ⟨hcalls, hoperations⟩ := confined_iff.mp hlast
  refine ⟨owed_eq_zero (fun r' hr' => ?_) hoperations, fun hquiet => ?_⟩
  · obtain ⟨r, hr, rfl⟩ := List.mem_map.mp hr'
    by_contra howes
    by_cases hown : r.address = call.address
    · rw [if_pos hown] at howes
      have hinvite : r.operationId = command.operationId ∧ r.inviteFinalEmitted = false := by
        by_contra hnot
        exact howes (by simp only [InviteCall.owes, if_neg hnot, if_neg hid.symm])
      exact (hcalls r hr (by simp [InviteCall.owes, hinvite])).2.2 hinvite.1
    · rw [if_neg hown] at howes
      exact hown (hcalls r hr howes).1
  · show finals _ (t.signals σs).book.events = _
    rw [book_signals, ← hevents]
    refine signals_silent hsound hid hstable hconfined fun σ hσ => ⟨?_, fun _ hnone => hnone.elim⟩
    rintro r ⟨-, hserial, hother⟩ (⟨-, hown⟩ | ⟨hanswer, -⟩)
    · exact hother hown
    · rw [hserial] at hanswer
      refine hquiet ⟨not_not.mp hbusy, ?_⟩
      rw [← hgiven] at hσ
      rcases List.mem_append.mp hσ with hended | hsent
      · exact .inl ⟨σ, hended, hanswer⟩
      · split_ifs at hsent with hsends
        · exact .inr ⟨hsends, σ, hsent, hanswer⟩
        · cases hsent

/-- The end of an operation leaves the others. -/
theorem mem_complete {serial : ℕ} {o : DialogOperation}
    (ho : o ∈ (b.complete serial).operations) : o ∈ b.operations ∧ o.serial ≠ serial := by
  unfold Book.complete at ho
  cases hoperation : b.operation serial with
  | none =>
    rw [hoperation] at ho
    exact ⟨ho, fun heq => by simpa [heq] using List.find?_eq_none.mp hoperation o ho⟩
  | some o' =>
    rw [hoperation] at ho
    have hkept : o ∈ b.operations.filter fun o => o.serial ≠ serial := by
      cases hpointer : o'.restoredCall with
      | none => simpa only [hpointer] using ho
      | some pointer =>
        simp only [hpointer] at ho
        exact ho
    obtain ⟨hmem, hne⟩ := List.mem_filter.mp hkept
    exact ⟨hmem, of_decide_eq_true hne⟩

/-- The operation of a request that fails is completed. -/
theorem operation_failed {serial : ℕ} (hb : b.Sound) (hid : id ≠ 0)
    (h : b.Confined id (fun _ => False) fun o => o.serial = serial) (σs : List Signal) :
    b.Settles id (∃ σ ∈ σs, σ.AnswersRequest serial) ((b.signals σs).complete serial) := by
  have hstable : Stable fun _ => False := fun _ _ _ _ hr => hr
  obtain ⟨hcalls, hoperations⟩ := confined_iff.mp (signals_confined hb hid hstable h σs)
  refine ⟨owed_eq_zero (fun r hr => ?_) fun o ho hown => ?_, fun hquiet => ?_⟩
  · by_contra howes
    exact hcalls r (calls_complete serial hr) howes
  · obtain ⟨hmem, hne⟩ := mem_complete ho
    exact hne (hoperations o hmem hown)
  · rw [events_complete]
    refine signals_silent hb hid hstable h fun σ hσ => ⟨fun _ hnone => hnone.elim, ?_⟩
    rintro o rfl hanswer
    exact hquiet ⟨σ, hσ, hanswer⟩

/-- A request of a restored dialog that fails is settled. -/
theorem restored_failed {env : RestoredEnv} (hs : s.book.Sound) (hid : command.operationId ≠ 0)
    (hfresh : s.book.Unseen command.operationId)
    (hfailed : (sendRestored s command env).1 ≠ .success) :
    s.book.Settles command.operationId (RestoredAnswered s command env)
      (sendRestored s command env).2.book := by
  unfold sendRestored at hfailed ⊢
  cases hprepare : prepareRestored s env command with
  | error status => exact hfresh.settles _
  | ok made =>
    obtain ⟨address, route⟩ := made
    rw [hprepare] at hfailed
    have hsend : env.send.status ≠ .success := hfailed
    simp only
    rw [book_sendOperation, if_pos hsend, book_begin rfl, book_push rfl]
    refine (operation_failed ?_ hid (confined_iff.mpr ⟨fun r hr howes => ?_, fun o ho hown => ?_⟩)
      env.send.during).imp fun hanswer => ⟨⟨_, hprepare⟩, hanswer⟩
    · exact sound_begin hs (sound_push hs rfl (prepareRestored_free s hprepare)) rfl rfl rfl
    · rcases List.mem_cons.mp hr with rfl | hold
      · exact absurd (by simp [InviteCall.owes, restoredCall, hid.symm]) howes
      · exact absurd (hfresh.owes hold) howes
    · rcases List.mem_cons.mp ho with rfl | hold
      · rfl
      · exact absurd hown (hfresh.operations o hold)

/-- So is an INFO that fails. -/
theorem info_failed {env : InfoEnv} (hs : s.book.Sound) (hid : command.operationId ≠ 0)
    (hfresh : s.book.Unseen command.operationId)
    (hfailed : (sendInfo s command env).1 ≠ .success) :
    s.book.Settles command.operationId (InfoAnswered s command env)
      (sendInfo s command env).2.book := by
  unfold sendInfo at hfailed ⊢
  split_ifs at hfailed ⊢ with hbad hcreate hmemory
  · exact hfresh.settles _
  · exact hfresh.settles _
  · exact hfresh.settles _
  · have hsend : env.send.status ≠ .success := hfailed
    have hready : (command.method = .info ∧ command.contentType ≠ [] ∧ command.body ≠ [] ∧
        isMediaType command.contentType = true) ∧ env.createRequest = .success ∧
        env.bodyCreate = true ∧ env.operationCalloc = true := by
      simpa only [not_or, not_not, Bool.not_eq_false, ne_eq] using
        And.intro hbad (And.intro hcreate hmemory)
    rw [book_sendOperation, if_pos hsend, book_begin rfl]
    refine (operation_failed ?_ hid (confined_iff.mpr ⟨fun r hr howes => ?_, fun o ho hown => ?_⟩)
      env.send.during).imp fun hanswer =>
        ⟨hready.1, hready.2.1, hready.2.2.1, hready.2.2.2, hanswer⟩
    · exact sound_begin hs (sound_number hs) rfl rfl rfl
    · exact absurd (hfresh.owes hr) howes
    · rcases List.mem_cons.mp ho with rfl | hold
      · rfl
      · exact absurd hown (hfresh.operations o hold)

/-- So is every dialog command that fails. -/
theorem dialog_failed {env : DialogEnv} (hs : s.book.Sound) (hid : command.operationId ≠ 0)
    (hfresh : s.book.Unseen command.operationId)
    (hfailed : (sendDialogOnOwner s command env).1 ≠ .success) :
    s.book.Settles command.operationId (DialogAnswered s command env)
      (sendDialogOnOwner s command env).2.book := by
  unfold sendDialogOnOwner at hfailed ⊢
  by_cases hbad : command.operationId = 0 ∨ command.callId = [] ∨ env.started = false
  · rw [if_pos hbad]
    exact hfresh.settles _
  rw [if_neg hbad] at hfailed ⊢
  have hready : command.callId ≠ [] ∧ env.started = true := by
    simpa only [not_or, Bool.not_eq_false] using (not_or.mp hbad).2
  by_cases hkind : command.restored = true
  · rw [if_pos hkind] at hfailed ⊢
    exact (restored_failed s hs hid hfresh hfailed).imp fun hanswer =>
      ⟨hready, by rwa [if_pos hkind]⟩
  have hcalled := fun hanswer => (⟨hready, if_neg hkind ▸ hanswer⟩ : DialogAnswered s command env)
  rw [if_neg hkind] at hfailed ⊢
  cases hfind : s.findInviteCall command.callId with
  | none => exact hfresh.settles _
  | some call =>
    rw [hfind] at hfailed
    by_cases hsession : call.invite = none
    · simp only [if_pos hsession]
      exact hfresh.settles _
    by_cases hmethod : command.method = .bye
    · simp only [if_neg hsession, if_pos hmethod] at hfailed ⊢
      exact (bye_failed s hs (mem_of_find hfind) hid hfresh hfailed).imp fun hanswer =>
        hcalled ⟨call, hfind, hsession, by rwa [if_pos hmethod]⟩
    · simp only [if_neg hsession, if_neg hmethod] at hfailed ⊢
      exact (info_failed s hs hid hfresh hfailed).imp fun hanswer =>
        hcalled ⟨call, hfind, hsession, by rwa [if_neg hmethod]⟩

/-- **A failed command is settled.** Its operation can no longer be reported, and no final response to it
was reported unless PJSIP answered the request before the failing call returned. -/
theorem failed_settles {op : Op} {status : PjStatus} (hs : s.book.Sound)
    (hop : op.operationIds = [id]) (hid : id ≠ 0) (hfresh : s.book.Unseen id)
    (hstatus : op.status s = some status) (hfailed : status ≠ .success) :
    s.book.Settles id (op.Answered s) (s.step op).book := by
  cases op with
  | invite =>
    obtain rfl := List.singleton_inj.mp hop
    exact invite_failed s hs hid hfresh (Option.some.inj hstatus ▸ hfailed)
  | dialog =>
    obtain rfl := List.singleton_inj.mp hop
    exact dialog_failed s hs hid hfresh (Option.some.inj hstatus ▸ hfailed)
  | respond | signal | receive | incoming | close => cases hop

end failed

/-! ## Operations that were not given yet -/

section unseen

variable {b₀ b b' : Book} {op : Op} {id : ℕ}

/-- A touch gives a record only ids of the operation. -/
theorem Touch.unseen (hid : id ≠ 0) (hop : id ∉ op.operationIds) (htouch : Touch b₀ op b r q)
    (h : r.operationId ≠ id ∧ r.dialogOperationId ≠ id) :
    q.call.operationId ≠ id ∧ q.call.dialogOperationId ≠ id := by
  refine ⟨htouch.sameCall.operationId ▸ h.1, ?_⟩
  rcases htouch.ending with (hkept | hnone) | hgiven
  · exact hkept ▸ h.2
  · exact hnone ▸ hid.symm
  · exact fun heq => hop (heq ▸ hgiven)

/-- A change brings in only ids of the operation. -/
theorem Change.unseen (hid : id ≠ 0) (hop : id ∉ op.operationIds) (h : b.Unseen id)
    (hchange : Change b₀ op b b') : b'.Unseen id := by
  cases hchange with
  | same => exact h
  | reported => exact ⟨h.calls, h.operations⟩
  | touched hcalls htouch =>
    refine ⟨fun r hr => ?_, h.operations⟩
    rcases mem_splice_calls hcalls hr with ⟨rfl, -⟩ | hold
    · exact htouch.unseen hid hop (h.calls _ (by simp [hcalls]))
    · exact h.calls r hold
  | invited hinvite =>
    subst hinvite
    refine ⟨fun r hr => ?_, h.operations⟩
    rcases List.mem_cons.mp hr with rfl | hold
    · exact ⟨fun heq => hop (List.mem_singleton.mpr heq.symm), hid.symm⟩
    · exact h.calls r hold
  | accepted =>
    refine ⟨fun r hr => ?_, h.operations⟩
    rcases List.mem_cons.mp hr with rfl | hold
    · exact ⟨hid.symm, hid.symm⟩
    · exact h.calls r hold
  | restored hdialog =>
    subst hdialog
    refine ⟨fun r hr => ?_, fun o ho => ?_⟩
    · rcases List.mem_cons.mp hr with rfl | hold
      · exact ⟨hid.symm, hid.symm⟩
      · exact h.calls r hold
    · rcases List.mem_cons.mp ho with rfl | hold
      · exact fun heq => hop (List.mem_singleton.mpr heq.symm)
      · exact h.operations o hold
  | informs hdialog =>
    subst hdialog
    refine ⟨h.calls, fun o ho => ?_⟩
    rcases List.mem_cons.mp ho with rfl | hold
    · exact fun heq => hop (List.mem_singleton.mpr heq.symm)
    · exact h.operations o hold
  | completed => exact ⟨h.calls, fun o ho => h.operations o (List.mem_of_mem_filter ho)⟩
  | discarded hmem hevents hcalls =>
    refine ⟨fun r hr => ?_, fun o ho => h.operations o (List.mem_of_mem_filter ho)⟩
    rcases mem_splice_calls hcalls hr with ⟨-, hkept⟩ | hold
    · cases hkept
    · exact h.calls r hold
  | swept => exact ⟨fun r hr => h.calls r (List.mem_of_mem_filter hr), h.operations⟩

/-- **An id no operation had is nowhere in the books.** -/
theorem runCalls_unseen {ops : List Op} (hid : id ≠ 0) (hops : id ∉ ops.flatMap Op.operationIds) :
    (runCalls ops).book.Unseen id := by
  have hnever : Throughout (fun _ op => id ∉ op.operationIds) ops := fun pre op post hsplit hmem =>
    hops (List.mem_flatMap.mpr ⟨op, by simp [hsplit], hmem⟩)
  exact runCalls_invariant (I := Book.Unseen id) hnever
    ⟨fun _ hr => absurd hr List.not_mem_nil, fun _ ho => absurd ho List.not_mem_nil⟩
    fun _ _ _ _ hop _ _ _ h hchange => hchange.unseen hid hop h

end unseen

/-! ## Faults -/

section faults

variable {b₀ b b' : Book} {op : Op} {id : ℕ}

/-- The report of a transaction is no fault. -/
theorem transactionEvent_no_fault (tx : Transaction) (rdata : Option RxData) (id' : ℕ) :
    ∀ e ∈ transactionEvent tx rdata id', ¬e.IsFault id := by
  intro e he hfault
  unfold transactionEvent at he
  by_cases hnone : id' = 0 ∨ tx.statusCode < 100
  · rw [if_pos hnone] at he
    cases he
  · rw [if_neg hnone] at he
    obtain rfl := List.mem_singleton.mp he
    cases hfault.1

/-- Events that are no faults do not count. -/
theorem countP_no_fault (events : List CallEvent) {events' : List CallEvent}
    (h : ∀ e ∈ events', ¬e.IsFault id) :
    (events ++ events').countP (CallEvent.IsFault id ·) = events.countP (CallEvent.IsFault id ·) := by
  have hnone : events'.countP (CallEvent.IsFault id ·) = 0 :=
    List.countP_eq_zero.mpr fun e he => by simpa using h e he
  rw [List.countP_append, hnone, Nat.add_zero]

/-- A touch reports no fault. -/
theorem Touch.no_fault (htouch : Touch b₀ op b r q) : ∀ e ∈ q.events, ¬e.IsFault id := by
  intro e he hfault
  cases htouch with
  | stateChanged =>
    unfold inviteOnStateChanged at he
    split_ifs at he <;> cases he
  | @tsx tx rdata _ _ _ hreact =>
    cases hreact with
    | request =>
      cases rdata with
      | none => cases he
      | some rx =>
        simp only [requestEvent] at he
        split_ifs at he
        · obtain rfl := List.mem_singleton.mp he
          cases hfault.1
        · cases he
    | repeated | ignored => cases he
    | progress | answered | answeredLast =>
      exact transactionEvent_no_fault tx rdata r.operationId e he hfault
    | ending | ended | endedLast =>
      exact transactionEvent_no_fault tx rdata r.dialogOperationId e he hfault
  | enters | captured | inviteFailed | ends | endFailed => cases he

/-- Neither does any change: faults come from failed commands only. -/
theorem Change.no_fault (hchange : Change b₀ op b b') :
    b'.events.countP (CallEvent.IsFault id ·) = b.events.countP (CallEvent.IsFault id ·) := by
  have hlast : ∀ {o : DialogOperation} {events : List CallEvent}, LastReport o events →
      ∀ e ∈ events, ¬e.IsFault id := by
    rintro o events (rfl | ⟨tx, rdata, rfl⟩)
    · exact fun _ he => absurd he List.not_mem_nil
    · exact transactionEvent_no_fault tx rdata o.operationId
  cases hchange with
  | same | invited | restored | informs | swept => rfl
  | touched hcalls htouch => exact countP_no_fault b.events htouch.no_fault
  | accepted =>
    refine countP_no_fault b.events fun e he hfault => ?_
    obtain rfl := List.mem_singleton.mp he
    cases hfault.1
  | @reported o tx rdata =>
    exact countP_no_fault b.events (transactionEvent_no_fault tx rdata o.operationId)
  | completed hmem hevents => exact countP_no_fault b.events (hlast hevents)
  | @discarded o events pre post r hmem hevents =>
    have hfinish : ((b.finish o events).splice pre ⟨r, [], true⟩ post).events = b.events ++ events := by
      simp [Book.splice, Book.finish]
    rw [hfinish]
    exact countP_no_fault b.events (hlast hevents)

/-- The calls are a ledger of faults, of which there are none. -/
theorem calls_no_faults (id : ℕ) :
    Ledger (fun s : CallRuntime => s.book.Sound) CallRuntime.step CallRuntime.events (fun _ => 0)
      (fun _ => 0) (CallEvent.IsFault id ·) :=
  Ledger.of_changes CallRuntime.book (fun _ => 0) step_changes
    (fun hb hchange => hchange.sound hb) Change.emits fun hchange => .inl hchange.no_fault.le

end faults

end GmvPjsip.Calls
