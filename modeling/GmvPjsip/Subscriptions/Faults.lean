import GmvPjsip.Calls.Faults
import GmvPjsip.Subscriptions.Reclaim

/-!
# SUBSCRIBE commands that fail

* `Confined`: an operation can be reported only from one record. Signals do not spread it, and only a
  final response to a SUBSCRIBE of that record reports one: `signals_confined`, `signals_silent`.
* `subscribe_settles`: after a failed SUBSCRIBE its operation can no longer be reported, and it was
  reported only if PJSIP answered the request before the failing call returned, `Op.Answered`.
* `subscriptions_no_faults`: only a refresh of PJSIP's own reports a fault here, and of no operation.
-/

namespace GmvPjsip.Subscriptions

open GmvPjsip.Auth hiding RxData
open GmvPjsip.Calls (CallEvent countP_no_fault finals finals_append finals_progress
  transactionEvent_no_fault)
open GmvPjsip.Commands
open GmvPjsip.Lib

/-! ## Definitions -/

/-- What the dispatcher gets back from the handler of a command.
Source: `shim_command_dispatch.inc` -/
def Op.status (s : SubscriptionRuntime) : Op → Option PjStatus
  | .subscribe command env => some (sendSubscribeOnOwner s command env).1
  | _ => none

/-- The operation `id` can be reported only from the record `serial`. -/
abbrev Confined (id serial : ℕ) (s : SubscriptionRuntime) : Prop :=
  Lib.Confined SubscriptionRuntime.subscriptions (SubscriptionCall.owes id)
    (fun r => r.serial = serial) s

/-- The record and the SUBSCRIBE that a command sends, if it gets as far as sending one. -/
def prepareRequest (s : SubscriptionRuntime) (command : SubscribeCommand) (env : SubscribeEnv) :
    Except PjStatus SubscriptionCall :=
  if command.callId ≠ [] then prepareRefresh s command env else prepareSubscribe s command env

/-- PJSIP answers the SUBSCRIBE of a command before the call that sends it returns: among the signals it
gives there is a final response to a SUBSCRIBE of that record. -/
def Op.Answered (s : SubscriptionRuntime) : Op → Prop
  | .subscribe command env =>
    (command.event ≠ [] ∧ env.ready = true) ∧
      ∃ r, prepareRequest s command env = .ok r ∧ env.start.prepare r = .success ∧
        ∃ σ ∈ env.start.during, σ.answers r.serial
  | _ => False

/-! ## Where an operation is reported from -/

section confined

variable {s : SubscriptionRuntime} {id serial : ℕ}

theorem owes_ne_zero {r : SubscriptionCall} : r.owes id ≠ 0 ↔ r.operationId = id := by
  unfold SubscriptionCall.owes
  split_ifs with hown <;> simp [hown]

theorem owed_eq_zero : s.owed id = 0 ↔ ∀ r ∈ s.subscriptions, r.operationId ≠ id :=
  sum_owes_eq_zero.trans (forall₂_congr fun _ _ => by rw [← not_ne_iff, owes_ne_zero])

/-- A callback pays the final response it reports out of what its record owes. -/
theorem reaction_account {σ : Signal} {r : SubscriptionCall} (hid : id ≠ 0)
    (hmine : r.serial = σ.subscription) (hlive : r.subscription ≠ none) :
    (σ.reaction r).account id ≤ r.owes id := by
  have hself : σ ∈ (Op.signal σ).signals := List.mem_singleton_self σ
  exact (reaction_touch hself hmine hlive).account hid

/-- What a signal leaves in the list comes from what there was. -/
theorem signal_descends (hid : id ≠ 0) (σ : Signal) (hs : s.Sound) :
    Descends SubscriptionRuntime.subscriptions (SubscriptionCall.owes id) (fun r => r.serial = serial)
      s (s.signal σ) := by
  intro r' hr' howes
  rcases signal_reacts hs σ with ⟨-, hsame⟩ | ⟨pre, r, post, hcalls, hmine, hlive, heq⟩
  · exact ⟨r', hsame ▸ hr', howes, fun h => h⟩
  · rw [heq] at hr'
    rcases mem_splice hcalls hr' with ⟨rfl, hkept⟩ | hold
    · have hpays := reaction_account hid hmine hlive
      rw [Reaction.account, if_neg (Bool.eq_false_iff.mp hkept)] at hpays
      exact ⟨r, by simp [hcalls], by omega, fun h => (reaction_serial σ r).trans h⟩
    · exact ⟨r', hold, howes, fun h => h⟩

theorem signals_confined (hs : s.Sound) (hid : id ≠ 0) (h : Confined id serial s)
    (σs : List Signal) : Confined id serial (s.signals σs) :=
  h.run (fun σ hs => sound_signal hs σ) (fun σ hs => signal_descends hid σ hs) hs σs

/-- A callback reports a final response to the operation of its record only if it is one. -/
theorem reaction_silent {σ : Signal} {r : SubscriptionCall} (hmine : r.serial = σ.subscription)
    (hquiet : ¬σ.answers r.serial) : finals id (σ.reaction r).events = 0 := by
  cases σ with
  | enters => rfl
  | stateChanged =>
    simp only [Signal.reaction, onState]
    split_ifs <;> rfl
  | tsx n request tx rdata =>
    have hreact := onTsxState_spec tx rdata r
    simp only [Signal.reaction]
    generalize onTsxState tx rdata r = q at hreact
    cases hreact with
    | ignored => rfl
    | progress hkind hbusy hprogress => exact finals_progress hprogress _
    | answered hkind hbusy hfinal | answeredLast hkind hbusy hfinal =>
      exact absurd ⟨hmine.symm, hkind, hfinal⟩ hquiet
  | notify n rdata => cases rdata <;> simp [Signal.reaction, onRxNotify, finals, CallEvent.IsFinal]

/-- **Signals that are no final response to a SUBSCRIBE of the record do not report one.** -/
theorem signals_silent (hs : s.Sound) (hid : id ≠ 0) (h : Confined id serial s) {σs : List Signal}
    (hσs : ∀ σ ∈ σs, ¬σ.answers serial) :
    finals id (s.signals σs).events = finals id s.events := by
  refine h.run_silent (fun σ hs => sound_signal hs σ) (fun σ hs => signal_descends hid σ hs) ?_ hs hσs
  intro s σ hs hconfined hquiet
  rcases signal_reacts hs σ with ⟨-, hsame⟩ | ⟨pre, r, post, hcalls, hmine, hlive, heq⟩
  · rw [hsame]
  · have hnone : finals id (σ.reaction r).events = 0 := by
      by_cases howes : r.owes id = 0
      · have hpays := reaction_account hid hmine hlive
        unfold Reaction.account at hpays
        omega
      · have hserial := hconfined r (by simp [hcalls]) howes
        exact reaction_silent hmine (hserial ▸ hquiet)
    rw [heq]
    show finals id (s.events ++ (σ.reaction r).events) = finals id s.events
    rw [finals_append, hnone, Nat.add_zero]

/-- A SUBSCRIBE is sent, or not, while its operation is confined. -/
theorem start_settles (r : SubscriptionCall) (env : StartEnv) (hs : s.Sound) (hid : id ≠ 0)
    (h : Confined id serial s) :
    Confined id serial (startSubscriptionRequest s r env).2 ∧
      (¬(env.prepare r = .success ∧ ∃ σ ∈ env.during, σ.answers serial) →
        finals id (startSubscriptionRequest s r env).2.events = finals id s.events) := by
  unfold startSubscriptionRequest
  split_ifs with hprepare
  · have hstarted : (s.start r).Sound := ⟨hs.once, hs.fresh⟩
    refine ⟨signals_confined hstarted hid h env.during, fun hquiet => ?_⟩
    exact signals_silent hstarted hid h fun σ hσ hanswer => hquiet ⟨hprepare, σ, hσ, hanswer⟩
  · exact ⟨h, fun _ => rfl⟩

/-- The record gives the operation up. -/
theorem owed_write (hid : id ≠ 0) (h : Confined id serial s) :
    (s.write serial fun r => { r with operationId := 0 }).owed id = 0 := by
  refine owed_eq_zero.mpr fun r' hr' => ?_
  obtain ⟨r, hr, rfl⟩ := List.mem_map.mp hr'
  by_cases hown : r.serial = serial
  · rw [if_pos hown]
    exact hid.symm
  · rw [if_neg hown]
    exact fun heq => hown (h r hr (owes_ne_zero.mpr heq))

/-- The record is gone. -/
theorem owed_drop (h : Confined id serial s) : (s.dropSubscription serial).owed id = 0 := by
  refine owed_eq_zero.mpr fun r' hr' => ?_
  obtain ⟨hwritten, hother⟩ := List.mem_filter.mp hr'
  obtain ⟨r, hr, rfl⟩ := List.mem_map.mp hwritten
  by_cases hown : r.serial = serial
  · simp [hown] at hother
  · rw [if_neg hown]
    exact fun heq => hown (h r hr (owes_ne_zero.mpr heq))

end confined

/-! ## Failed commands -/

section failed

variable {s : SubscriptionRuntime} {command : SubscribeCommand} {env : SubscribeEnv}

/-- **A failed SUBSCRIBE is settled.** Its operation can no longer be reported, and no final response to
it was reported unless PJSIP answered the request before the failing call returned. -/
theorem subscribe_settles (hs : s.Sound) (hid : command.operationId ≠ 0)
    (hfresh : s.owed command.operationId = 0)
    (hfailed : (sendSubscribeOnOwner s command env).1 ≠ .success) :
    (sendSubscribeOnOwner s command env).2.owed command.operationId = 0 ∧
      (¬(Op.subscribe command env).Answered s →
        finals command.operationId (sendSubscribeOnOwner s command env).2.events =
          finals command.operationId s.events) := by
  have hnobody := owed_eq_zero.mp hfresh
  unfold sendSubscribeOnOwner at hfailed ⊢
  by_cases hbad : command.operationId = 0 ∨ command.event = [] ∨ env.ready = false
  · rw [if_pos hbad]
    exact ⟨hfresh, fun _ => rfl⟩
  rw [if_neg hbad] at hfailed ⊢
  have hready : command.event ≠ [] ∧ env.ready = true := by
    simpa only [not_or, Bool.not_eq_false] using (not_or.mp hbad).2
  by_cases hrefresh : command.callId ≠ []
  · rw [if_pos hrefresh] at hfailed ⊢
    cases hprepare : prepareRefresh s command env with
    | error status => exact ⟨hfresh, fun _ => rfl⟩
    | ok r' =>
      rw [hprepare] at hfailed
      simp only at hfailed ⊢
      rw [if_pos hfailed]
      obtain ⟨r, hr, hidle, hr'⟩ := prepareRefresh_ok hprepare
      obtain ⟨pre, post, hcalls⟩ := List.append_of_mem hr
      have hserial : r'.serial = r.serial := by rw [hr']
      have hsound : (s.write r'.serial fun _ => r').Sound := by
        rw [hserial, write_split hs hcalls]
        exact sound_splice hs hcalls hserial none
      have hconfined : Confined command.operationId r'.serial (s.write r'.serial fun _ => r') := by
        intro r₁ hr₁ howes
        obtain ⟨r₀, hr₀, rfl⟩ := List.mem_map.mp hr₁
        by_cases hsame : r₀.serial = r'.serial
        · rw [if_pos hsame]
        · rw [if_neg hsame] at howes
          exact absurd (owes_ne_zero.mp howes) (hnobody r₀ hr₀)
      obtain ⟨hlast, hsilent⟩ := start_settles r' env.start hsound hid hconfined
      refine ⟨owed_write hid hlast, fun hquiet => hsilent fun hanswer => hquiet ⟨hready, r', ?_, hanswer⟩⟩
      rw [prepareRequest, if_pos hrefresh, hprepare]
  · rw [if_neg hrefresh] at hfailed ⊢
    cases hprepare : prepareSubscribe s command env with
    | error status => exact ⟨hfresh, fun _ => rfl⟩
    | ok r =>
      rw [hprepare] at hfailed
      simp only at hfailed ⊢
      rw [if_pos hfailed]
      have hsound : (s.push r).Sound := sound_push hs (prepareSubscribe_ok hprepare).1 List.perm_middle
      have hconfined : Confined command.operationId r.serial (s.push r) := by
        intro r₁ hr₁ howes
        rcases List.mem_cons.mp hr₁ with rfl | hold
        · rfl
        · exact absurd (owes_ne_zero.mp howes) (hnobody r₁ hold)
      obtain ⟨hlast, hsilent⟩ := start_settles r env.start hsound hid hconfined
      refine ⟨owed_drop hlast, fun hquiet => hsilent fun hanswer => hquiet ⟨hready, r, ?_, hanswer⟩⟩
      rw [prepareRequest, if_neg hrefresh, hprepare]

end failed

/-! ## Faults -/

section faults

variable {s₀ s s' : SubscriptionRuntime} {op : Op} {id : ℕ}

theorem Touch.no_fault {r : SubscriptionCall} {request : Option ℕ} {q : Reaction}
    (htouch : Touch op r request q) : ∀ e ∈ q.events, ¬e.IsFault id := by
  intro e he hfault
  cases htouch with
  | stateChanged =>
    unfold onState at he
    split_ifs at he <;> cases he
  | @tsx _ tx rdata _ _ _ hreact =>
    cases hreact with
    | ignored => cases he
    | progress | answered | answeredLast =>
      exact transactionEvent_no_fault tx rdata r.operationId e he hfault
  | @notify rdata =>
    cases rdata with
    | none => cases he
    | some rx =>
      obtain rfl := List.mem_singleton.mp he
      cases hfault.1
  | enters | replaced | refreshFailed | abandoned => cases he

theorem Change.no_fault (hid : id ≠ 0) (hchange : Change s₀ op s s') :
    s'.events.countP (CallEvent.IsFault id ·) = s.events.countP (CallEvent.IsFault id ·) := by
  cases hchange with
  | same | subscribed | refused | automatic | swept => rfl
  | touched hcalls htouch => exact countP_no_fault s.events htouch.no_fault
  | refreshed =>
    show (s.events ++ []).countP _ = _
    rw [List.append_nil]
  | fault =>
    refine countP_no_fault s.events fun e he hfault => ?_
    obtain rfl := List.mem_singleton.mp he
    exact hid hfault.2.symm

/-- The subscriptions are a ledger of the faults of an operation, of which there are none. -/
theorem subscriptions_no_faults (hid : id ≠ 0) :
    Ledger SubscriptionRuntime.Sound SubscriptionRuntime.step SubscriptionRuntime.events (fun _ => 0)
      (fun _ => 0) (CallEvent.IsFault id ·) :=
  Ledger.of_changes (fun s => s) (fun _ => 0) (fun op hs => step_changes hs op)
    (fun hs hchange => hchange.sound hs) Change.emits fun hchange => .inl (hchange.no_fault hid).le

end faults

end GmvPjsip.Subscriptions
