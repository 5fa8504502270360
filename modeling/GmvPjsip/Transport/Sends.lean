import GmvPjsip.Commands.Payload
import Mathlib.Data.List.Induction
import Mathlib.Data.List.Perm.Basic
import Mathlib.Logic.Relation

/-!
# Sends

PJSIP hands a message to a transport together with a callback. A transport that accepts the message
answers `PJ_EPENDING` and keeps the callback in `pending_sends` until the socket layer reports what
became of the message, until the transport is closed, or until the runtime is released. A callback
may send again while the list is being walked.

* `Send` is a send with everything its callback will send in turn, a finite tree. `runSends` is what
  a list of sends, completions, closes and stops makes of a new runtime.
* `Move` says once what can happen to the list. `runSends_spec`: every run ends, and is a sequence of
  moves; a loop over the list ends because a callback sends less than what it stood for.
-/

namespace GmvPjsip.Transport

open GmvPjsip.Auth
open GmvPjsip.Commands
open Relation

/-! ## The code -/

/-- An error of `pjsip_tx_data_encode`, which never reports that it is pending. -/
structure EncodeError where
  status : PjStatus
  ne_success : status ≠ .success
  ne_epending : status ≠ .epending

/-- What `gmv_custom_transport_send` gets from outside the shim: how encoding the message ends and
how long it then is, whether the entry can be allocated, and what `send_callback` returns. -/
structure SendOutcome where
  encode : Option EncodeError
  dataLen : Int
  callocOk : Bool
  sendStatus : PjStatus

/-- A call of `gmv_custom_transport_send`. A transport is its address, and `further` is what the
callback sends when it is called. -/
structure Send where
  transport : ℕ
  outcome : SendOutcome
  hasCallback : Bool
  further : List Send

/-- `gmv_pending_send_t`. `number` says which call of the run the entry is of. -/
structure PendingSend where
  sendId : ℕ
  transport : ℕ
  number : ℕ
  hasCallback : Bool
  further : List Send

/-- The last argument of a callback. -/
inductive Sent
  | bytes (sentBytes : Int)
  /-- The negated status. -/
  | failed (status : PjStatus)
  deriving DecidableEq, Repr

/-- What became of a call of `gmv_custom_transport_send`: the id it took, if it came that far, and
what it returned. -/
structure SendRecord where
  sendId : Option ℕ
  status : PjStatus
  hasCallback : Bool
  deriving DecidableEq, Repr

/-- The part of a runtime that sending reads and writes. `shutdown` are the transports whose
`is_shutdown` is set. `returned`, `completed` and `invoked` are written and never read: the calls so
far, those whose entry was completed, and those whose callback was called. -/
structure Sends where
  sendCallback : Bool
  transports : List ℕ
  shutdown : List ℕ
  sendSequence : ℕ
  pendingSends : List PendingSend
  returned : List SendRecord
  completed : List ℕ
  invoked : List (ℕ × Sent)

/-- A runtime that was just created. -/
def Sends.init (sendCallback : Bool) : Sends where
  sendCallback := sendCallback
  transports := []
  shutdown := []
  sendSequence := 0
  pendingSends := []
  returned := []
  completed := []
  invoked := []

/-- Note what a call returned. -/
def Sends.returns (s : Sends) (sendId : Option ℕ) (status : PjStatus) (hasCallback : Bool) : Sends :=
  { s with returned := s.returned ++ [⟨sendId, status, hasCallback⟩] }

/-- Number a send and put it in front of the list. -/
def Sends.enlist (s : Sends) (x : Send) : Sends :=
  { s with
    sendSequence := u64 (s.sendSequence + 1)
    pendingSends := ⟨u64 (s.sendSequence + 1), x.transport, s.returned.length, x.hasCallback,
      x.further⟩ :: s.pendingSends }

/-- Source: `shim_transport.inc`, `gmv_remove_pending_send` -/
def removePendingSend (s : Sends) (number : ℕ) : Sends :=
  { s with pendingSends := s.pendingSends.eraseP fun p => p.number = number }

/-- Source: `shim_transport.inc`, `gmv_custom_transport_send` -/
def customTransportSend (s : Sends) (x : Send) : Sends :=
  if !s.sendCallback || x.transport ∈ s.shutdown then s.returns none .eshutdown x.hasCallback
  else match x.outcome.encode with
  | some error => s.returns none error.status x.hasCallback
  | none =>
    if x.outcome.dataLen ≤ 0 then s.returns none .einval x.hasCallback
    else if !x.outcome.callocOk then s.returns none .enomem x.hasCallback
    else
      let s' := s.enlist x
      if x.outcome.sendStatus ≠ .success then
        (removePendingSend s' s.returned.length).returns (some s'.sendSequence) .etoomany x.hasCallback
      else s'.returns (some s'.sendSequence) .epending x.hasCallback

/-- Take an entry out of the list, which leaves `rest`, and note that its callback is called. -/
def Sends.unlink (s : Sends) (p : PendingSend) (rest : List PendingSend) (sent : Sent) : Sends :=
  { s with
    pendingSends := rest
    completed := s.completed ++ [p.number]
    invoked := if p.hasCallback then s.invoked ++ [(p.number, sent)] else s.invoked }

/-- Take an entry out of the list and call its callback, which sends what it sends. -/
def Sends.complete (s : Sends) (p : PendingSend) (rest : List PendingSend) (sent : Sent) : Sends :=
  if p.hasCallback then p.further.foldl customTransportSend (s.unlink p rest sent)
  else s.unlink p rest sent

/-- Source: `shim.c`, `gmv_process_send_completions` -/
def processSendCompletion (s : Sends) (command : SendCompletionCommand) : Sends :=
  match s.pendingSends.find? (fun p => p.sendId = command.sendId) with
  | none => s
  | some pending =>
    s.complete pending (s.pendingSends.eraseP fun p => p.sendId = command.sendId)
      (.bytes command.sentBytes)

/-- Source: `shim.c`, `gmv_process_send_completions` -/
def processSendCompletions (s : Sends) (commands : List SendCompletionCommand) : Sends :=
  commands.foldl processSendCompletion s

/-- The loop of `gmv_fail_transport_sends`: `kept` are the entries the cursor has passed and `rest`
those it has not. What a callback sends is put in front of the whole list, so the cursor only gets
to it if it still is at the head. `none` is a loop that did not end.
Source: `shim_transport.inc`, `gmv_fail_transport_sends` -/
def failLoop (transport : ℕ) (sent : Sent) :
    ℕ → List PendingSend → List PendingSend → Sends → Option Sends
  | _, _, [], s => some s
  | 0, _, _ :: _, _ => none
  | fuel + 1, kept, pending :: rest, s =>
    if pending.transport ≠ transport then
      failLoop transport sent fuel (kept ++ [pending]) rest s
    else
      let s' := s.complete pending (kept ++ rest) sent
      if kept.isEmpty then failLoop transport sent fuel [] s'.pendingSends s'
      else
        let kept' := s'.pendingSends.take (s'.pendingSends.length - rest.length)
        failLoop transport sent fuel kept' rest s'

mutual

/-- The number of sends in a tree. -/
def Send.weight : Send → ℕ
  | ⟨_, _, _, further⟩ => weights further + 1

/-- The number of sends in a list of trees. -/
def weights : List Send → ℕ
  | [] => 0
  | x :: rest => x.weight + weights rest

end

/-- The number of sends that completing these entries can lead to, the entries included. -/
def pendingWeight (pending : List PendingSend) : ℕ :=
  (pending.map fun p => weights p.further + 1).sum

/-- Source: `shim_transport.inc`, `gmv_fail_transport_sends` -/
def failTransportSends (s : Sends) (transport : ℕ) (status : PjStatus) : Option Sends :=
  failLoop transport (.failed status) (pendingWeight s.pendingSends) [] s.pendingSends s

/-- Source: `shim_transport.inc`, `gmv_close_custom_transport` -/
def closeCustomTransport (s : Sends) (transport : ℕ) (status : PjStatus) : Option Sends :=
  let s' := { s with transports := s.transports.erase transport }
  (failTransportSends s' transport (if status = .success then .eshutdown else status)).map
    fun s'' => { s'' with shutdown := transport :: s''.shutdown }

/-- Close the first transport until there is none.
Source: `shim.c`, `gmv_runtime_release` -/
def closeAll : ℕ → Sends → Option Sends
  | 0, s => if s.transports.isEmpty then some s else none
  | fuel + 1, s => match s.transports with
    | [] => some s
    | transport :: _ => (closeCustomTransport s transport .eshutdown).bind (closeAll fuel)

/-- Complete the first entry until there is none.
Source: `shim.c`, `gmv_runtime_release` -/
def failAll : ℕ → Sends → Option Sends
  | 0, s => if s.pendingSends.isEmpty then some s else none
  | fuel + 1, s => match s.pendingSends with
    | [] => some s
    | pending :: rest => failAll fuel (s.complete pending rest (.failed .eshutdown))

/-- Source: `shim.c`, `gmv_runtime_release` -/
def Sends.release (s : Sends) : Option Sends :=
  (closeAll s.transports.length s).bind fun s' => failAll (pendingWeight s'.pendingSends) s'

/-- What can happen to the list. A new transport may stand where one stood that was closed. -/
inductive SendOp
  | create (transport : ℕ)
  | send (x : Send)
  | completions (commands : List SendCompletionCommand)
  | close (transport : ℕ) (status : PjStatus)
  | stop

/-- One thing that happens. A close only comes to a transport that is in the list. -/
def Sends.step (s : Sends) : SendOp → Option Sends
  | .create transport =>
    if transport ∈ s.transports then some s
    else some { s with
      transports := transport :: s.transports
      shutdown := s.shutdown.filter (· ≠ transport) }
  | .send x => some (customTransportSend s x)
  | .completions commands => some (processSendCompletions s commands)
  | .close transport status =>
    if transport ∈ s.transports then closeCustomTransport s transport status else some s
  | .stop => s.release

/-- What a run makes of a new runtime. -/
def runSends (sendCallback : Bool) (ops : List SendOp) : Option Sends :=
  ops.foldlM Sends.step (Sends.init sendCallback)

/-! ## What can happen to the list -/

/-- What the callback of a send may be told: that its transport failed, or the result of one of these
completions, which is for its id. -/
def Says (commands : List SendCompletionCommand) (p : PendingSend) (sent : Sent) : Prop :=
  (∃ status, sent = .failed status) ∨ ∃ c ∈ commands, p.sendId = c.sendId ∧ sent = .bytes c.sentBytes

/-- One change, while these completions are handled. An entry that is completed may stand anywhere in
the list. -/
inductive Move (commands : List SendCompletionCommand) (s : Sends) : Sends → Prop
  | refused (status : PjStatus) (hasCallback : Bool) (hstatus : status ≠ .epending) :
      Move commands s (s.returns none status hasCallback)
  | rejected (hasCallback : Bool) :
      Move commands s ({ s with sendSequence := u64 (s.sendSequence + 1) }.returns
        (some (u64 (s.sendSequence + 1))) .etoomany hasCallback)
  | accepted (x : Send) : Move commands s
      ((s.enlist x).returns (some (u64 (s.sendSequence + 1))) .epending x.hasCallback)
  | completed (p : PendingSend) (rest : List PendingSend) (sent : Sent)
      (hperm : s.pendingSends.Perm (p :: rest)) (hstated : Says commands p sent) :
      Move commands s (s.unlink p rest sent)
  | listed (transports shutdown : List ℕ) :
      Move commands s { s with transports := transports, shutdown := shutdown }

/-- Any number of changes. -/
abbrev Moves (commands : List SendCompletionCommand) : Sends → Sends → Prop :=
  ReflTransGen (Move commands)

/-- What happens while some completions are handled may happen while more are. -/
theorem Moves.mono {commands more : List SendCompletionCommand} {s s' : Sends}
    (h : Moves commands s s') (hsub : commands ⊆ more) : Moves more s s' := by
  refine ReflTransGen.mono ?_ s s' h
  intro t t' hmove
  cases hmove with
  | refused status hasCallback hstatus => exact .refused status hasCallback hstatus
  | rejected hasCallback => exact .rejected hasCallback
  | accepted x => exact .accepted x
  | completed p rest sent hperm hstated =>
    exact .completed p rest sent hperm (hstated.imp_right fun ⟨c, hc, hsaid⟩ => ⟨c, hsub hc, hsaid⟩)
  | listed transports shutdown => exact .listed transports shutdown

/-- Whether a send is accepted. It depends on nothing a send changes. -/
def Sends.accepts (s : Sends) (x : Send) : Bool :=
  s.sendCallback && decide (x.transport ∉ s.shutdown) && x.outcome.encode.isNone &&
    decide (0 < x.outcome.dataLen) && x.outcome.callocOk && x.outcome.sendStatus = .success

/-- A send is accepted, or it returns something else and leaves the list as it was. -/
theorem customTransportSend_cases (s : Sends) (x : Send) :
    s.accepts x = true ∧ customTransportSend s x =
        (s.enlist x).returns (some (u64 (s.sendSequence + 1))) .epending x.hasCallback ∨
      s.accepts x = false ∧ ((∃ status, status ≠ .epending ∧
          customTransportSend s x = s.returns none status x.hasCallback) ∨
        customTransportSend s x = { s with sendSequence := u64 (s.sendSequence + 1) }.returns
          (some (u64 (s.sendSequence + 1))) .etoomany x.hasCallback) := by
  unfold customTransportSend
  by_cases hclosed : (!s.sendCallback || x.transport ∈ s.shutdown) = true
  · refine .inr ⟨?_, .inl ⟨.eshutdown, by decide, if_pos hclosed⟩⟩
    simp only [Bool.or_eq_true, Bool.not_eq_true', decide_eq_true_eq] at hclosed
    rcases hclosed with hnone | hshut
    · simp [Sends.accepts, hnone]
    · simp [Sends.accepts, hshut]
  rw [if_neg hclosed]
  cases hencode : x.outcome.encode with
  | some error =>
    exact .inr ⟨by simp [Sends.accepts, hencode], .inl ⟨error.status, error.ne_epending, rfl⟩⟩
  | none =>
    by_cases hlen : x.outcome.dataLen ≤ 0
    · exact .inr ⟨by simp [Sends.accepts, Int.not_lt.mpr hlen], .inl ⟨.einval, by decide, if_pos hlen⟩⟩
    by_cases hcalloc : (!x.outcome.callocOk) = true
    · simp only [if_neg hlen, if_pos hcalloc]
      exact .inr ⟨by simp_all [Sends.accepts], .inl ⟨.enomem, by decide, rfl⟩⟩
    by_cases hsend : x.outcome.sendStatus ≠ .success
    · simp only [if_neg hlen, if_neg hcalloc, if_pos hsend]
      have hremoved : removePendingSend (s.enlist x) s.returned.length =
          { s with sendSequence := u64 (s.sendSequence + 1) } := by
        simp [removePendingSend, Sends.enlist]
      rw [hremoved]
      exact .inr ⟨by simp [Sends.accepts, hsend], .inr rfl⟩
    · simp only [if_neg hlen, if_neg hcalloc, if_neg hsend]
      exact .inl ⟨by simp_all [Sends.accepts], rfl⟩

section

variable (commands : List SendCompletionCommand)

/-- A send is one change. What it adds to the list is no more than the send itself. -/
theorem customTransportSend_spec (s : Sends) (x : Send) : Move commands s (customTransportSend s x) ∧
      (customTransportSend s x).transports = s.transports ∧
      ∃ new, (customTransportSend s x).pendingSends = new ++ s.pendingSends ∧
        pendingWeight new ≤ x.weight := by
  rcases customTransportSend_cases s x with ⟨-, heq⟩ | ⟨-, ⟨status, hstatus, heq⟩ | heq⟩ <;> rw [heq]
  · refine ⟨.accepted x, rfl, [_], rfl, ?_⟩
    cases x
    simp [pendingWeight, Send.weight]
  · exact ⟨.refused status _ hstatus, rfl, [], rfl, Nat.zero_le _⟩
  · exact ⟨.rejected _, rfl, [], rfl, Nat.zero_le _⟩

@[simp] theorem pendingWeight_cons (p : PendingSend) (rest : List PendingSend) :
    pendingWeight (p :: rest) = weights p.further + 1 + pendingWeight rest := by
  simp [pendingWeight]

@[simp] theorem pendingWeight_append (first second : List PendingSend) :
    pendingWeight (first ++ second) = pendingWeight first + pendingWeight second := by
  simp [pendingWeight]

/-- The sends of a callback. -/
theorem foldl_send_spec (further : List Send) (s : Sends) :
    Moves commands s (further.foldl customTransportSend s) ∧
      (further.foldl customTransportSend s).transports = s.transports ∧
      ∃ new, (further.foldl customTransportSend s).pendingSends = new ++ s.pendingSends ∧
        pendingWeight new ≤ weights further := by
  induction further generalizing s with
  | nil => exact ⟨.refl, rfl, [], rfl, Nat.zero_le _⟩
  | cons x rest ih =>
    obtain ⟨hmove, htransports, new, hnew, hweight⟩ := customTransportSend_spec commands s x
    obtain ⟨hmoves, htransports', new', hnew', hweight'⟩ := ih (customTransportSend s x)
    refine ⟨.head hmove hmoves, htransports'.trans htransports, new' ++ new, ?_, ?_⟩
    · rw [List.foldl_cons, hnew', hnew, List.append_assoc]
    · rw [pendingWeight_append, weights]
      omega

/-- After an entry was taken out of the list, its callback sends. It sends less than what the entry
stood for. -/
theorem Sends.complete_spec (s : Sends) (p : PendingSend) (rest : List PendingSend) (sent : Sent) :
    Moves commands (s.unlink p rest sent) (s.complete p rest sent) ∧
      (s.complete p rest sent).transports = s.transports ∧
      ∃ new, (s.complete p rest sent).pendingSends = new ++ rest ∧
        pendingWeight new ≤ weights p.further := by
  unfold Sends.complete
  by_cases hcallback : p.hasCallback = true
  · rw [if_pos hcallback]
    exact foldl_send_spec commands p.further (s.unlink p rest sent)
  · rw [if_neg hcallback]
    exact ⟨.refl, rfl, [], rfl, Nat.zero_le _⟩

theorem find_eraseP_perm {α : Type} {l : List α} {p : α → Bool} {a : α} (h : l.find? p = some a) :
    l.Perm (a :: l.eraseP p) := by
  obtain ⟨ha, before, after, rfl, hbefore⟩ := List.find?_eq_some_iff_append.mp h
  rw [List.eraseP_append_right _ (by simpa using hbefore), List.eraseP_cons_of_pos ha]
  exact List.perm_middle

variable {commands} in
/-- A completion completes the first entry with its id, if there is one. -/
theorem processSendCompletion_moves (s : Sends) {command : SendCompletionCommand}
    (hmem : command ∈ commands) : Moves commands s (processSendCompletion s command) := by
  unfold processSendCompletion
  cases hfind : s.pendingSends.find? (fun p => p.sendId = command.sendId) with
  | none => exact .refl
  | some pending =>
    have hid : pending.sendId = command.sendId := by simpa using List.find?_some hfind
    exact .head (.completed pending _ _ (find_eraseP_perm hfind) (.inr ⟨command, hmem, hid, rfl⟩))
      (s.complete_spec commands pending _ _).1

end

theorem processSendCompletions_moves (commands : List SendCompletionCommand) (s : Sends) :
    Moves commands s (processSendCompletions s commands) := by
  induction commands generalizing s with
  | nil => exact .refl
  | cons command rest ih =>
    exact (processSendCompletion_moves s List.mem_cons_self).trans
      ((ih _).mono (List.subset_cons_self command rest))

/-! ## The loops end -/

/-- Every turn of the loop leaves less in front of the cursor: it passes an entry, or it completes
one, and what the callback sends weighs less than the entry. -/
theorem failLoop_spec (transport : ℕ) (status : PjStatus) (fuel : ℕ) :
    ∀ (kept rest : List PendingSend) (s : Sends), s.pendingSends = kept ++ rest →
      pendingWeight rest ≤ fuel →
      ∃ s', failLoop transport (.failed status) fuel kept rest s = some s' ∧ Moves [] s s' ∧
        s'.transports = s.transports := by
  induction fuel with
  | zero =>
    intro kept rest s _ hfuel
    cases rest with
    | nil => exact ⟨s, rfl, .refl, rfl⟩
    | cons p rest =>
      rw [pendingWeight_cons] at hfuel
      omega
  | succ fuel ih =>
    intro kept rest s hpending hfuel
    cases rest with
    | nil => exact ⟨s, rfl, .refl, rfl⟩
    | cons p rest =>
      rw [pendingWeight_cons] at hfuel
      rw [failLoop]
      by_cases hother : p.transport ≠ transport
      · rw [if_pos hother]
        exact ih (kept ++ [p]) rest s (by rw [hpending, List.append_cons]) (by omega)
      rw [if_neg hother]
      have hperm : s.pendingSends.Perm (p :: (kept ++ rest)) := hpending ▸ List.perm_middle
      obtain ⟨hmoves, htransports, new, hnew, hweight⟩ :=
        s.complete_spec [] p (kept ++ rest) (.failed status)
      replace hmoves := ReflTransGen.head (.completed p _ _ hperm (.inl ⟨status, rfl⟩)) hmoves
      generalize s.complete p (kept ++ rest) (.failed status) = s' at hmoves htransports hnew
      suffices hloop : ∃ s'', (if kept.isEmpty = true then
          failLoop transport (.failed status) fuel [] s'.pendingSends s'
          else failLoop transport (.failed status) fuel
            (s'.pendingSends.take (s'.pendingSends.length - rest.length)) rest s') = some s'' ∧
          Moves [] s' s'' ∧ s''.transports = s'.transports by
        obtain ⟨s'', hrun, hmoves', htransports'⟩ := hloop
        exact ⟨s'', hrun, hmoves.trans hmoves', htransports'.trans htransports⟩
      cases kept with
      | nil =>
        refine ih [] s'.pendingSends s' rfl ?_
        rw [hnew, pendingWeight_append, List.nil_append]
        omega
      | cons k kept =>
        have htake : s'.pendingSends.take (s'.pendingSends.length - rest.length) =
            new ++ k :: kept := by
          rw [hnew, ← List.append_assoc]
          refine List.take_left' ?_
          simp only [List.length_append]
          omega
        rw [if_neg (by simp), htake]
        exact ih _ rest s' (by rw [hnew, List.append_assoc]) (by omega)

theorem closeCustomTransport_spec (s : Sends) (transport : ℕ) (status : PjStatus) :
    ∃ s', closeCustomTransport s transport status = some s' ∧ Moves [] s s' ∧
      s'.transports = s.transports.erase transport := by
  obtain ⟨s', hrun, hmoves, htransports⟩ :=
    failLoop_spec transport (if status = .success then .eshutdown else status)
      (pendingWeight s.pendingSends) [] s.pendingSends
      { s with transports := s.transports.erase transport } rfl (Nat.le_refl _)
  refine ⟨{ s' with shutdown := transport :: s'.shutdown }, ?_, ?_, htransports⟩
  · rw [closeCustomTransport, failTransportSends, hrun, Option.map_some]
  · exact .head (.listed _ s.shutdown) (hmoves.tail (.listed s'.transports _))

theorem closeAll_spec (fuel : ℕ) : ∀ s : Sends, s.transports.length ≤ fuel →
      ∃ s', closeAll fuel s = some s' ∧ Moves [] s s' ∧ s'.transports = [] := by
  induction fuel with
  | zero =>
    intro s hfuel
    have hnone : s.transports = [] := List.length_eq_zero_iff.mp (by omega)
    exact ⟨s, by simp [closeAll, hnone], .refl, hnone⟩
  | succ fuel ih =>
    intro s hfuel
    cases hlist : s.transports with
    | nil => exact ⟨s, by simp only [closeAll, hlist], .refl, hlist⟩
    | cons transport rest =>
      obtain ⟨s', hclose, hmoves, htransports⟩ :=
        closeCustomTransport_spec s transport .eshutdown
      rw [hlist, List.erase_cons_head] at htransports
      rw [hlist, List.length_cons] at hfuel
      obtain ⟨s'', hrun, hmoves', hnone⟩ := ih s' (by rw [htransports]; omega)
      refine ⟨s'', ?_, hmoves.trans hmoves', hnone⟩
      simp only [closeAll, hlist, hclose, Option.bind_some, hrun]

theorem failAll_spec (fuel : ℕ) : ∀ s : Sends, pendingWeight s.pendingSends ≤ fuel →
      ∃ s', failAll fuel s = some s' ∧ Moves [] s s' ∧ s'.pendingSends = [] := by
  induction fuel with
  | zero =>
    intro s hfuel
    cases hlist : s.pendingSends with
    | nil => exact ⟨s, by simp [failAll, hlist], .refl, hlist⟩
    | cons p rest =>
      rw [hlist, pendingWeight_cons] at hfuel
      omega
  | succ fuel ih =>
    intro s hfuel
    cases hlist : s.pendingSends with
    | nil => exact ⟨s, by simp only [failAll, hlist], .refl, hlist⟩
    | cons p rest =>
      rw [hlist, pendingWeight_cons] at hfuel
      obtain ⟨hmoves, -, new, hnew, hweight⟩ := s.complete_spec [] p rest (.failed .eshutdown)
      replace hmoves :=
        ReflTransGen.head (.completed p _ _ (List.Perm.of_eq hlist) (.inl ⟨_, rfl⟩)) hmoves
      obtain ⟨s', hrun, hmoves', hnone⟩ :=
        ih (s.complete p rest (.failed .eshutdown)) (by rw [hnew, pendingWeight_append]; omega)
      refine ⟨s', ?_, hmoves.trans hmoves', hnone⟩
      simp only [failAll, hlist, hrun]

/-- A release ends, with nothing left in the list. -/
theorem Sends.release_spec (s : Sends) :
    ∃ s', s.release = some s' ∧ Moves [] s s' ∧ s'.pendingSends = [] := by
  obtain ⟨s', hclose, hmoves, -⟩ := closeAll_spec s.transports.length s (Nat.le_refl _)
  obtain ⟨s'', hfail, hmoves', hnone⟩ :=
    failAll_spec (pendingWeight s'.pendingSends) s' (Nat.le_refl _)
  exact ⟨s'', by rw [Sends.release, hclose, Option.bind_some, hfail], hmoves.trans hmoves', hnone⟩

/-- The completions that are handled. -/
def SendOp.handled : SendOp → List SendCompletionCommand
  | .completions commands => commands
  | _ => []

/-- Whatever happens ends, and is a sequence of changes. -/
theorem Sends.step_spec (s : Sends) (op : SendOp) :
    ∃ s', s.step op = some s' ∧ Moves op.handled s s' := by
  cases op with
  | create transport =>
    by_cases hknown : transport ∈ s.transports
    · exact ⟨s, if_pos hknown, .refl⟩
    · exact ⟨_, if_neg hknown, .single (.listed _ _)⟩
  | send x => exact ⟨_, rfl, .single (customTransportSend_spec [] s x).1⟩
  | completions commands => exact ⟨_, rfl, processSendCompletions_moves commands s⟩
  | close transport status =>
    by_cases hknown : transport ∈ s.transports
    · obtain ⟨s', hrun, hmoves, -⟩ := closeCustomTransport_spec s transport status
      exact ⟨s', (if_pos hknown).trans hrun, hmoves⟩
    · exact ⟨s, if_neg hknown, .refl⟩
  | stop =>
    obtain ⟨s', hrun, hmoves, -⟩ := s.release_spec
    exact ⟨s', hrun, hmoves⟩

theorem runSends_spec (sendCallback : Bool) (ops : List SendOp) :
    ∃ s, runSends sendCallback ops = some s ∧
      Moves (ops.flatMap SendOp.handled) (.init sendCallback) s := by
  induction ops using List.reverseRecOn with
  | nil => exact ⟨_, rfl, .refl⟩
  | append_singleton ops op ih =>
    obtain ⟨s, hrun, hmoves⟩ := ih
    obtain ⟨s', hstep, hmoves'⟩ := s.step_spec op
    rw [List.flatMap_append, List.flatMap_singleton]
    refine ⟨s', ?_, (hmoves.mono (List.subset_append_left _ _)).trans
      (hmoves'.mono (List.subset_append_right _ _))⟩
    rw [runSends] at hrun ⊢
    rw [List.foldlM_append, hrun]
    simpa using hstep

end GmvPjsip.Transport
